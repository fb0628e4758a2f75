import ModuleGraph.Proofs.FragmentBodies
import ModuleGraph.Proofs.StatementSpans

/-!
# The words that lead declarations

Every `import` and `export` outside of all brackets of a body leads a declaration of that body, is
the alias behind `export * as`, or stands in code, where it is not the first word of a line
(`SyntaxTree.placed`).
-/

namespace ModuleGraph

open TokenStream
open ModuleGraph.Parser
open Token (Kind brackets)

/-- The token stands in the code of a statement, behind the tokens `inner` of this code. It is the
first one only behind `export default`; otherwise no line ends before it, and if the code is an
exported function or class, then it is not behind the brace that closes its body. -/
structure Statement.InCode (st : Statement) (c : Code) (inner : List Token) (t : Token) : Prop where
  code : st.code? = some c
  start : (inner.headD t).span.start = c.span.start
  stop : t.span.stop ≤ c.span.stop
  first : inner = [] → ∃ localName span, st = .exportDefault localName c span
  line : inner ≠ [] → t.newlineBefore = false
  brace : st.keyword? = some .«export» → (ofTokens inner).atFunctionOrClass = true →
    ∀ u, inner.getLast? = some u → u.kind = .rightBrace →
      ∃ d ∈ c.inlineModules, d.span.stop = u.span.stop

/-- Where an `import` or `export` stands in a body, behind the tokens `before` of the body. -/
inductive Placed (body : List Statement) (before : List Token) (t : Token) : Prop where
  /-- It leads an import or export. -/
  | leads {st : Statement} {k : Keyword} (hst : st ∈ body) (hkind : t.kind = .keyword k)
      (hkeyword : st.keyword? = some k) (hstart : st.span.start = t.span.start)
  /-- It is the alias behind `export * as`. -/
  | names {source : Specifier} {k : Keyword} {span : Span}
      (hst : .exportAll source (some k.word) span ∈ body) (hkind : t.kind = .keyword k)
      (hstart : span.start < t.span.start) (hstop : t.span.stop ≤ span.stop)
  /-- It stands in code. -/
  | code {st : Statement} {c : Code} {front inner : List Token} (hst : st ∈ body)
      (hbefore : before = front ++ inner) (hcode : st.InCode c inner t)

namespace Placed

variable {body body' : List Statement} {before : List Token} {t : Token}

/-- A word that is placed in some statements is placed in every body that has them. -/
theorem mono (h : Placed body before t) (hbody : body ⊆ body') : Placed body' before t := by
  cases h with
  | leads hst hkind hkeyword hstart => exact .leads (hbody hst) hkind hkeyword hstart
  | names hst hkind hstart hstop => exact .names (hbody hst) hkind hstart hstop
  | code hst hbefore hcode => exact .code (hbody hst) hbefore hcode

/-- A word is placed in a body whatever tokens stand in front of it besides. -/
theorem prepend (h : Placed body before t) (ts : List Token) : Placed body (ts ++ before) t := by
  cases h with
  | leads hst hkind hkeyword hstart => exact .leads hst hkind hkeyword hstart
  | names hst hkind hstart hstop => exact .names hst hkind hstart hstop
  | @code st c front inner hst hbefore hcode =>
      exact .code hst (by rw [hbefore, List.append_assoc]) hcode

end Placed

/-! ## The words of a phrase -/

/-- The current token leads a declaration if the parser starts an export or an import there. -/
theorem leads_iff {s : TokenStream} :
    s.current.Leads s.ahead ↔ s.atKeyword .«export» = true ∨ s.atImport = true := by
  have hsecond : ∀ k : Kind, k ≠ .keyword .«import» → s.kind = .keyword .«import» →
      ((∀ u, s.ahead.head? = some u → u.kind ≠ k) ↔ (s.second.kind != k) = true) := by
    intro k hk hkind
    rw [bne_iff_ne]
    unfold second TokenStream.advance
    cases hahead : s.ahead with
    | nil =>
        have : s.current.kind = .keyword .«import» := hkind
        simp [this, hk.symm]
    | cons t ts => simp
  unfold Token.Leads
  rw [atKeyword_iff, show s.current.kind = s.kind from rfl]
  refine or_congr Iff.rfl ?_
  rw [atImport, Bool.and_eq_true, Bool.and_eq_true, atKeyword_iff, and_assoc]
  refine and_congr_right fun hkind => ?_
  rw [← hsecond _ (by simp) hkind, ← hsecond _ (by simp) hkind]
  exact ⟨fun h => ⟨fun u hu => (h u hu).1, fun u hu => (h u hu).2⟩,
    fun h u hu => ⟨h.1 u hu, h.2 u hu⟩⟩

/-- What may be said of a word in a run of code behind the tokens `pre` of the run. -/
def CodeWord (codeEnd : CodeEnd) (isFirst : Bool) (final : Span) (modules : List ModuleDeclaration)
    (pre : List Token) (t : Token) : Prop :=
  t.span.stop ≤ final.stop ∧
    (pre = [] ∧ isFirst = true ∨ t.newlineBefore = false ∧ (codeEnd = .declaration →
      ∀ u, pre.getLast? = some u → u.kind = .rightBrace → ∃ d ∈ modules, d.span.stop = u.span.stop))

section CodeWord

variable {codeEnd : CodeEnd} {isFirst : Bool} {final : Span} {modules : List ModuleDeclaration}
  {pre : List Token} {t u : Token}

/-- A word behind the token `u` of a run. Where it stands directly behind a brace, this one has not
ended the run. -/
theorem CodeWord.cons (h : CodeWord codeEnd false final modules pre t)
    (hends : pre = [] → u.kind = .rightBrace → codeEnd ≠ .declaration) :
    CodeWord codeEnd isFirst final modules (u :: pre) t := by
  obtain ⟨hle, ⟨-, hfirst⟩ | ⟨hline, hmodules⟩⟩ := h
  · cases hfirst
  refine ⟨hle, .inr ⟨hline, fun hdeclaration v hv hbrace => ?_⟩⟩
  cases pre with
  | nil =>
      cases hv
      exact absurd hdeclaration (hends rfl hbrace)
  | cons w pre =>
      rw [List.getLast?_cons_cons] at hv
      exact hmodules hdeclaration v hv hbrace

/-- A word behind the module declaration `d` of a run, which ends with the token `u`. -/
theorem CodeWord.behind_module {d : ModuleDeclaration} {front : List Token}
    (h : CodeWord codeEnd false final modules pre t) (hstop : d.span.stop = u.span.stop) :
    CodeWord codeEnd isFirst final (d :: modules) (front ++ [u] ++ pre) t := by
  obtain ⟨hle, ⟨-, hfirst⟩ | ⟨hline, hmodules⟩⟩ := h
  · cases hfirst
  refine ⟨hle, .inr ⟨hline, fun hdeclaration v hv hbrace => ?_⟩⟩
  rw [List.getLast?_append] at hv
  cases hpre : pre.getLast? with
  | some w =>
      rw [hpre] at hv
      obtain ⟨e, he, hestop⟩ := hmodules hdeclaration v (hpre.trans hv) hbrace
      exact ⟨e, List.mem_cons_of_mem _ he, hestop⟩
  | none =>
      rw [hpre, List.getLast?_append] at hv
      cases hv
      exact ⟨d, List.mem_cons_self .., hstop⟩

end CodeWord

/-- What may be said of a word in a phrase behind the tokens `pre` of the phrase. -/
def Phrase.Admits : Phrase → (pre : List Token) → Token → Prop
  | .statements body => Placed body
  | .statement st | .exported _ st => Placed [st]
  | .declaration .. => fun _ _ => False
  | .code codeEnd isFirst _ _ final modules => CodeWord codeEnd isFirst final modules

/-- The number of brackets around the first token of a phrase. -/
def Phrase.depth : Phrase → Nat
  | .code _ _ depth _ _ _ => depth
  | _ => 0

/-- A function or class that starts some tokens starts all tokens that start with them. -/
theorem atFunctionOrClass_of_toList {s : TokenStream} {ts us : List Token}
    (h : s.toList = ts ++ us) (hat : (ofTokens ts).atFunctionOrClass = true) :
    s.atFunctionOrClass = true := by
  obtain ⟨previous, current, ahead⟩ := s
  cases ts with
  | nil => simp [ofTokens, atFunctionOrClass, atWord, Token.isWord] at hat
  | cons t ts =>
      obtain ⟨rfl, hahead⟩ := List.cons.inj h
      cases ts with
      | nil =>
          have hword : (ofTokens [current]).atWord "async" = false := by
            refine Bool.eq_false_iff.2 fun hword => ?_
            have hkind : current.kind = .identifier "async" := atWord_iff.1 hword
            have hcurrent : (ofTokens [current]).second = current := rfl
            rw [atFunctionOrClass, hword, if_pos rfl, hcurrent, hkind] at hat
            cases hat
          have hword' : atWord "async" ⟨previous, current, ahead⟩ = false := hword
          rw [atFunctionOrClass, hword] at hat
          rw [atFunctionOrClass, hword']
          exact hat
      | cons v ts =>
          have hahead' : ahead = v :: (ts ++ us) := hahead
          subst hahead'
          exact hat

/-- A run of code that starts with a function or class ends with its body where it is exported. -/
theorem declarationEnd?_eq {s : TokenStream} {codeEnd : CodeEnd}
    (hend : declarationEnd? s.kind = some codeEnd) (hat : s.atFunctionOrClass = true) :
    codeEnd = .declaration := by
  unfold atFunctionOrClass at hat
  cases hword : s.atWord "async" with
  | true =>
      rw [atWord_iff.1 hword] at hend
      cases hend
      rfl
  | false =>
      rw [hword] at hat
      simp only [Bool.or_eq_true, beq_iff_eq] at hat
      have hkind : s.kind = .keyword .«function» ∨ s.kind = .keyword .«class» := hat
      rcases hkind with hkind | hkind <;> rw [hkind] at hend <;> cases hend <;> rfl

/-- A word in the code of a statement. -/
theorem inCode_of_codeWord {st : Statement} {codeEnd : CodeEnd} {final : Span}
    {modules : List ModuleDeclaration} {s s' : TokenStream} {pre rest : List Token} {t : Token}
    (hcode : Reads (.code codeEnd true 0 s.current.span final modules) s s') (hs : s.Closed)
    (ho : Token.Ordered s.toList)
    (hst : st.code? = some (.mk (s.current.span.cover final) modules))
    (htokens : s.toList = pre ++ t :: rest)
    (hword : CodeWord codeEnd true final modules pre t)
    (hfirst : pre = [] → ∃ localName span,
      st = .exportDefault localName (.mk (s.current.span.cover final) modules) span)
    (hend : st.keyword? = some .«export» → s.atFunctionOrClass = true → codeEnd = .declaration) :
    st.InCode (.mk (s.current.span.cover final) modules) pre t where
  code := hst
  start := by
    have hhead : pre.headD t = s.current := by
      cases pre <;> exact (List.cons.inj htokens).1.symm
    rw [hhead]
    exact (hcode.code_span hs ho).1.symm
  stop := Nat.le_trans hword.1 (Nat.le_of_eq (hcode.code_span hs ho).2.symm)
  first := hfirst
  line hpre := by
    obtain ⟨rfl, -⟩ | ⟨hline, -⟩ := hword.2
    · exact absurd rfl hpre
    · exact hline
  brace hkeyword hat u hu hbrace := by
    obtain ⟨rfl, -⟩ | ⟨-, hmodules⟩ := hword.2
    · cases hu
    · exact hmodules (hend hkeyword (atFunctionOrClass_of_toList htokens hat)) u hu hbrace

/-! ### The forms of phrases -/

section Forms

variable {s s₁ s' : TokenStream} {start final : Span} {codeEnd : CodeEnd} {isFirst : Bool}
  {depth : Nat} {last : Span} {modules : List ModuleDeclaration} {st : Statement}

/-- What is exported begins behind `export`. -/
theorem begins_exported (hs : s.Closed) (ho : Token.Ordered s.toList)
    (hat : s.atKeyword .«export» = true) :
    Phrase.Begins s.advance (.exported s.current.span st) := by
  have hkind : s.current.kind = .keyword .«export» := atKeyword_iff.1 hat
  have hend : s.kind ≠ .endOfInput := by simp [atKeyword_iff.1 hat]
  exact ⟨s.current, previous_advance (hs.ahead_ne_nil hend), rfl, by simp [hkind],
    hs.toList_eq hend ▸ ho⟩

/-- A module declaration behind `export` begins with it. -/
theorem begins_exportModule {d : ModuleDeclaration} (ho : Token.Ordered s.toList)
    (hat : s.atModule = true) (hbegins : Phrase.Begins s (.exported start (.module d))) :
    Phrase.Begins s (.declaration start true .statement d) := by
  obtain ⟨u, -, rfl, -, ho'⟩ := hbegins
  have hstop := ho'.le_of_cons (t := s.current) (List.mem_cons_self ..)
  have hle := ho'.le u (List.mem_cons_self ..)
  have hle' := ho.le s.current (List.mem_cons_self ..)
  exact ⟨kind_of_atModule hat, by omega, by omega⟩

/-- An import declaration has its own word and no other. -/
theorem guarded_importFrom {n : Nat} (hs : s.Closed) (ho : Token.Ordered s.toList)
    (hat : s.atImport = true) (hread : importDeclaration n s = .ok (st, s')) :
    GuardedBetween 0 (Placed [st]) s s' := by
  obtain ⟨source, bindings, span, ts, rfl, hspan, hts, hquiet, -⟩ :=
    span_of_importFrom (Quiet.clausal (A := fun _ => False)) hs hat ho hread
  have hbehind : GuardedBetween 0 (fun _ _ => False) s.advance s' := ⟨ts, hts, hquiet _⟩
  exact hbehind.cons_keyword hs (kind_of_atImport hat)
    (.leads (List.mem_singleton.2 rfl) (kind_of_atImport hat) rfl hspan) fun h => h.elim

/-- An export declaration has its own word and those of what it exports. -/
theorem guarded_exportStatement (hs : s.Closed) (ho : Token.Ordered s.toList)
    (hat : s.atKeyword .«export» = true) (hread : Reads (.exported s.current.span st) s.advance s')
    (h : GuardedBetween 0 (Placed [st]) s.advance s') : GuardedBetween 0 (Placed [st]) s s' := by
  obtain ⟨hkeyword, hstart⟩ :=
    hread.exported_leads (hs.of_follows (follows_advance s)) (begins_exported hs ho hat)
  have hkind := atKeyword_iff.1 hat
  exact h.cons_keyword hs hkind (.leads (List.mem_singleton.2 rfl) hkind hkeyword hstart)
    fun h => h.prepend [s.current]

/-- The first token of a statement of code leads nothing. -/
theorem guarded_code (hs : s.Closed) (ho : Token.Ordered s.toList) (himport : s.atImport = false)
    (hexport : s.atKeyword .«export» = false)
    (hcode : Reads (.code .statement true 0 s.current.span final modules) s s')
    (h : GuardedBetween 0 (CodeWord .statement true final modules) s s') :
    GuardedBetween 0 (Placed [.code (.mk (s.current.span.cover final) modules)]) s s' := by
  refine h.mono fun {pre rest t} hsplit hleads hword => ?_
  have hfirst : pre ≠ [] := by
    rintro rfl
    obtain ⟨rfl, rfl⟩ := List.cons.inj hsplit
    simp [leads_iff, himport, hexport] at hleads
  exact .code (List.mem_singleton.2 rfl) (List.nil_append pre).symm
    (inCode_of_codeWord hcode hs ho rfl hsplit hword (fun hpre => absurd hpre hfirst)
      (fun hkeyword => by cases hkeyword))

/-- In an `export *` only the alias can be such a word. -/
theorem guarded_exportAll (hkind : s.kind = .star) (hs : s.Closed)
    (hbegins : Phrase.Begins s (.exported start st))
    (hread : exportAllClause start s.advance = .ok (st, s')) :
    GuardedBetween 0 (Placed [st]) s s' := by
  obtain ⟨u, hu, rfl, hend, ho⟩ := hbegins
  obtain ⟨source, name?, span, ts, rfl, hspan, hts, hquiet, hreaches⟩ :=
    span_of_exportAll (fun _ => Quiet.clausal) Quiet.ofAlias hs hkind hu ho rfl hread
  refine ⟨ts, hts, (hquiet _).mono fun {pre mid t} hsplit _ halias => ?_⟩
  obtain ⟨k, htk, rfl⟩ := halias
  have hmem : t ∈ ts := by simp [hsplit]
  have hbefore := ho.le_of_cons (t := t) (hts ▸ List.mem_append_left _ hmem)
  have hlt := ho.lt u (List.mem_cons_self ..) hend
  exact .names (List.mem_singleton.2 rfl) htk (by omega)
    (hreaches.le t (List.mem_cons_of_mem _ hmem))

/-- No such word stands in an export of names, outside of its braces. -/
theorem guarded_exportNames {n : Nat} (hkind : s.kind = .leftBrace) (hs : s.Closed)
    (hbegins : Phrase.Begins s (.exported start st))
    (hread : exportNamesClause n start s.advance = .ok (st, s')) :
    GuardedBetween 0 (Placed [st]) s s' := by
  obtain ⟨u, hu, rfl, -, ho⟩ := hbegins
  obtain ⟨names, source, span, ts, rfl, -, hts, hquiet, -⟩ :=
    span_of_exportNames (Quiet.clausal (A := fun _ => False)) hs hkind hu ho rfl hread
  exact ⟨ts, hts, (hquiet _).mono fun _ _ h => h.elim⟩

/-- Such words in a default export are those in its code. -/
theorem guarded_exportDefault {localName : String} {span : Span} (hs : s.Closed)
    (ho : Token.Ordered s.toList) (hkind : s.kind = .keyword .«default»)
    (hcode : Reads (.code (defaultEnd s.advance) true 0 s.advance.current.span final modules)
      s.advance s')
    (h : GuardedBetween 0 (CodeWord (defaultEnd s.advance) true final modules) s.advance s') :
    GuardedBetween 0 (Placed [.exportDefault localName
      (.mk (s.advance.current.span.cover final) modules) span]) s s' := by
  have hfollows := follows_advance s
  have hcodeEnd : s.advance.atFunctionOrClass = true → defaultEnd s.advance = .declaration :=
    fun hat => by rw [defaultEnd, if_pos hat]
  let code : Code := .mk (s.advance.current.span.cover final) modules
  have hin : GuardedBetween 0 ((Statement.exportDefault localName code span).InCode code)
      s.advance s' :=
    h.mono fun hsplit _ hword => inCode_of_codeWord hcode (hs.of_follows hfollows)
      (ho.of_follows hfollows) rfl hsplit hword (fun _ => ⟨_, _, rfl⟩) fun _ => hcodeEnd
  exact hin.cons_plain hs hkind rfl (by simp) fun hword =>
    .code (List.mem_singleton.2 rfl) List.singleton_append.symm hword

/-- Such words in an exported declaration are those in its code. -/
theorem guarded_exportDeclaration {names : List String} {span : Span} (hs : s.Closed)
    (ho : Token.Ordered s.toList) (hend : declarationEnd? s.kind = some codeEnd)
    (hcode : Reads (.code codeEnd true 0 s.current.span final modules) s s')
    (h : GuardedBetween 0 (CodeWord codeEnd true final modules) s s') :
    GuardedBetween 0 (Placed [.exportDeclaration names
      (.mk (s.current.span.cover final) modules) span]) s s' := by
  refine h.mono fun {pre rest t} hsplit hleads hword => ?_
  have hfirst : pre ≠ [] := by
    rintro rfl
    obtain ⟨rfl, -⟩ := List.cons.inj hsplit
    obtain hkind | hkind := hleads.kind <;>
      rw [show s.kind = s.current.kind from rfl, hkind] at hend <;> cases hend
  exact .code (List.mem_singleton.2 rfl) (List.nil_append pre).symm
    (inCode_of_codeWord hcode hs ho rfl hsplit hword (fun hpre => absurd hpre hfirst)
      fun _ => declarationEnd?_eq hend)

/-- Nothing in a module declaration stands outside of its braces but its name. -/
theorem guarded_declaration {name : Option String} {Admits : List Token → Token → Prop}
    (hs : s.Closed) (hkind : s.kind = .identifier "module")
    (hname : moduleName s.advance = (name, s₁)) (hopen : s₁.kind = .leftBrace)
    (hbody : s'.Follows s₁.advance) (hclose : s'.kind = .rightBrace)
    (h : GuardedBetween 0 Admits s₁.advance s') :
    GuardedBetween 0 (fun _ _ => False) s s'.advance := by
  have hs₁ : s₁.Follows s := (follows_moduleName hname).of_advance
  have hclosing := (hs.of_follows (hbody.of_advance.trans hs₁)).toList_eq (by simp [hclose])
  have hopening := (hs.of_follows hs₁).toList_eq (by simp [hopen])
  obtain ⟨names, hnames, hquiet⟩ :=
    (Quiet.clausal (A := fun _ => False)).moduleName (hs.of_follows (follows_advance s)) hname
  obtain ⟨inner, hinner, hguarded⟩ := h
  have hbraces : GuardedBetween 0 (fun _ _ => False) s₁ s'.advance := by
    refine ⟨s₁.current :: inner ++ [s'.current], ?_,
      .braces hopen hclose fun {n stack} h => hguarded.stays (Nat.succ_le_succ h)⟩
    rw [hopening, hinner, hclosing]
    simp
  have hbehind : GuardedBetween 0 (fun _ _ => False) s.advance s'.advance :=
    .append ⟨names, hnames.toList_eq, hquiet _⟩ hbraces id fun _ => id
  exact hbehind.cons_plain hs hkind rfl (by simp) id

/-- A module in code has no such word outside of its braces, and the code goes on behind it. -/
theorem guarded_codeModule {d : ModuleDeclaration} (hs : s.Closed) (ho : Token.Ordered s.toList)
    (hat : onModule isFirst depth s = true)
    (hmodule : Reads (.declaration s.current.span false .nested d) s s₁)
    (h : GuardedBetween 0 (fun _ _ => False) s s₁)
    (h' : GuardedBetween depth (CodeWord codeEnd false final modules) s₁ s') :
    GuardedBetween depth (CodeWord codeEnd isFirst final (d :: modules)) s s' := by
  obtain ⟨-, -, closing, ⟨front, hfront⟩, hlast, -, hstop⟩ :=
    hmodule.declaration_span hs ho ⟨kind_of_onModule hat, Nat.le_refl _, Nat.le_refl _⟩
  refine h.append h' (fun h => h.elim) fun {ts pre t} hts hword => ?_
  have htokens : ts ++ s₁.toList = (front ++ [closing.current]) ++ s₁.toList := by
    rw [← hts, ← hfront, hlast]
    simp
  rw [List.append_cancel_right htokens]
  exact CodeWord.behind_module hword hstop

/-- A word in code is the current token or one behind it. -/
theorem guarded_codeToken (hs : s.Closed) (ho : Token.Ordered s.toList)
    (hgoes : GoesOn codeEnd isFirst depth s)
    (hcode : Reads (.code codeEnd false (depthAfter s.kind depth) s.current.span final modules)
      s.advance s')
    (h : GuardedBetween (depthAfter s.kind depth) (CodeWord codeEnd false final modules)
      s.advance s') :
    GuardedBetween depth (CodeWord codeEnd isFirst final modules) s s' := by
  have hfollows := follows_advance s
  refine h.cons hs hgoes.unfinished (fun hclose hdepth => hgoes.close ⟨hdepth, hclose⟩) ?_ ?_
  · intro hdepth hleads
    have hstop : s.current.span.stop ≤ final.stop := by
      have hle := ho.le_of_follows hfollows
      obtain rfl | hfinal := hcode.ends (hs.of_follows hfollows) (ho.of_follows hfollows)
      · exact Nat.le_refl _
      · exact Nat.le_trans hle.2 hfinal.2
    refine ⟨hstop, ?_⟩
    cases isFirst with
    | true => exact .inl ⟨rfl, rfl⟩
    | false =>
        refine .inr ⟨?_, fun _ u hu => by cases hu⟩
        have hstatement := hgoes.statement
        rw [hdepth] at hstatement
        obtain hat | hat := leads_iff.1 hleads <;>
          simpa [onStatement, startsHere, hat] using hstatement
  · intro pre u hpre hword
    refine hword.cons fun hnil hbrace hdeclaration => ?_
    -- a brace that leads out of all brackets ends the declaration
    have hkind : s.kind = .rightBrace := hbrace
    have hdepth := hpre hnil
    rw [hkind] at hdepth
    have hone : depth - 1 = 0 := hdepth
    have hclose : depth ≠ 0 := fun h => hgoes.close ⟨h, by rw [hkind]; rfl⟩
    exact hgoes.declaration ⟨by omega, hdeclaration, hkind⟩

end Forms

/-- The words among the tokens of a phrase are where the phrase admits them. The induction is on
what is read; brackets that are open before the phrase stay open all through it. -/
theorem Reads.guarded {phrase : Phrase} {s s' : TokenStream} (h : Reads phrase s s')
    (hs : s.Closed) (ho : Token.Ordered s.toList) (hbegins : phrase.Begins s) :
    GuardedBetween phrase.depth phrase.Admits s s' := by
  induction h with
  | nil => exact .refl _
  | @semicolon s s' body hkind hbody ih =>
      have hfollows := follows_advance s
      exact (ih (hs.of_follows hfollows) (ho.of_follows hfollows) trivial).cons_plain hs hkind rfl
        (by simp) fun h => h.prepend [s.current]
  | cons hend hsemicolon hstatement hbody ihStatement ihBody =>
      have hfollows := hstatement.follows
      exact (ihStatement hs ho trivial).append
        (ihBody (hs.of_follows hfollows) (ho.of_follows hfollows) trivial)
        (fun h => h.mono (by simp)) fun _ h => (h.mono (List.subset_cons_self ..)).prepend _
  | importFrom hat hread => exact guarded_importFrom hs ho hat hread
  | @exportStatement s s' st hat hread ih =>
      have hfollows := follows_advance s
      exact guarded_exportStatement hs ho hat hread
        (ih (hs.of_follows hfollows) (ho.of_follows hfollows) (begins_exported hs ho hat))
  | module hat hread ih =>
      have hguarded := ih hs ho ⟨kind_of_atModule hat, Nat.le_refl _, Nat.le_refl _⟩
      exact hguarded.mono fun _ _ h => h.elim
  | code himport hexport hmodule hcode ih =>
      exact guarded_code hs ho himport hexport hcode (ih hs ho trivial)
  | exportModule hat hread ih =>
      exact (ih hs ho (begins_exportModule ho hat hbegins)).mono fun _ _ h => h.elim
  | exportAll hkind hread => exact guarded_exportAll hkind hs hbegins hread
  | exportNames hkind hread => exact guarded_exportNames hkind hs hbegins hread
  | @exportDefault start s s' final modules hkind hcode ih =>
      have hfollows := follows_advance s
      exact guarded_exportDefault hs ho hkind hcode
        (ih (hs.of_follows hfollows) (ho.of_follows hfollows) trivial)
  | exportDeclaration hmodule hend hcode hnames ih =>
      exact guarded_exportDeclaration hs ho hend hcode (ih hs ho trivial)
  | @declaration _ _ _ s s₁ _ _ _ hname hopen hbody hclose ih =>
      -- the words of a body are inside of its braces, and the phrase is outside of them
      have hinside : s₁.advance.Follows s :=
        (follows_advance s₁).trans (follows_moduleName hname).of_advance
      exact guarded_declaration hs hbegins.1 hname hopen hbody.follows hclose
        (ih (hs.of_follows hinside) (ho.of_follows hinside) trivial)
  | codeAtEnd | codeAtClose | codeAtStatement => exact .refl _
  | codeAtSemicolon hkind =>
      exact .single hs (by simp [hkind]) (by simp [hkind, Kind.isCloseBracket]) (by simp [hkind])
  | codeAtDeclaration hkind =>
      exact .single hs (by simp [hkind]) (by simp [Phrase.depth]) (by simp [hkind])
  | codeModule hat hmodule hcode ihModule ihCode =>
      have hfollows := hmodule.follows
      exact guarded_codeModule hs ho hat hmodule
        (ihModule hs ho ⟨kind_of_onModule hat, Nat.le_refl _, Nat.le_refl _⟩)
        (ihCode (hs.of_follows hfollows) (ho.of_follows hfollows) trivial)
  | @codeToken codeEnd isFirst depth last final s s' modules hgoes hcode ih =>
      have hfollows := follows_advance s
      exact guarded_codeToken hs ho hgoes hcode
        (ih (hs.of_follows hfollows) (ho.of_follows hfollows) trivial)

/-! ## Bodies and their tokens -/

/-- Whether a span lies inside another one. -/
def Span.within (inner outer : Span) : Bool :=
  decide (outer.start ≤ inner.start ∧ inner.stop ≤ outer.stop)

/-- The bodies of a source text, each with the tokens of its text. -/
inductive SyntaxTree.HasBody (tree : SyntaxTree) : List Token → List Statement → Prop where
  | whole : HasBody tree (Token.ofChars tree.text) tree.body
  | declared {d : ModuleDeclaration} (hd : Declares tree.body d) :
    HasBody tree ((Token.ofChars tree.text).filter fun t => t.span.within d.bodySpan) d.body

/-- The tokens between two braces are those within the span between them. -/
theorem filter_within {before inner after : List Token} {opening closing : Token}
    (ho : Token.Ordered (before ++ opening :: (inner ++ closing :: after)))
    (hopen : opening.kind ≠ .endOfInput) (hclose : closing.kind ≠ .endOfInput) :
    (before ++ opening :: (inner ++ closing :: after)).filter
      (fun t => t.span.within ⟨opening.span.stop, closing.span.start⟩) = inner := by
  have hopening := ho.lt opening (by simp) hopen
  have hclosing := ho.lt closing (by simp) hclose
  obtain ⟨-, hinside, hbefore⟩ := List.pairwise_append.1 ho.apart
  obtain ⟨hafterOpening, hinside⟩ := List.pairwise_cons.1 hinside
  obtain ⟨-, hbehind, hinner⟩ := List.pairwise_append.1 hinside
  obtain ⟨hbehind, -⟩ := List.pairwise_cons.1 hbehind
  have hfirst : ∀ t ∈ before, t.span.within ⟨opening.span.stop, closing.span.start⟩ = false := by
    intro t ht
    have hapart := hbefore t ht opening (by simp)
    have hle := ho.le t (by simp [ht])
    simp only [Span.within, decide_eq_false_iff_not]
    omega
  have hmiddle : ∀ t ∈ inner, t.span.within ⟨opening.span.stop, closing.span.start⟩ = true := by
    intro t ht
    have hstart := hafterOpening t (by simp [ht])
    have hstop := hinner t ht closing (by simp)
    simp only [Span.within, decide_eq_true_eq]
    omega
  have hlast : ∀ t ∈ after, t.span.within ⟨opening.span.stop, closing.span.start⟩ = false := by
    intro t ht
    have hapart := hbehind t ht
    have hle := ho.le t (by simp [ht])
    simp only [Span.within, decide_eq_false_iff_not]
    omega
  have hends : opening.span.within ⟨opening.span.stop, closing.span.start⟩ = false ∧
      closing.span.within ⟨opening.span.stop, closing.span.start⟩ = false := by
    simp only [Span.within, decide_eq_false_iff_not]
    omega
  rw [List.filter_append, List.filter_cons_of_neg (by simp [hends.1]), List.filter_append,
    List.filter_cons_of_neg (by simp [hends.2]), List.filter_eq_nil_iff.2 (by simpa using hfirst),
    List.filter_eq_self.2 hmiddle, List.filter_eq_nil_iff.2 (by simpa using hlast)]
  simp

/-- A word among the tokens that statements are read from. -/
theorem placed_of_reads {body : List Statement} {s s' : TokenStream} {before mid : List Token}
    {t : Token} (h : Reads (.statements body) s s') (hs : s.Closed) (ho : Token.Ordered s.toList)
    (htokens : s.toList = before ++ t :: mid ++ s'.toList) (hdepth : brackets [] before = [])
    (hleads : t.Leads (mid ++ s'.toList)) : Placed body before t := by
  obtain ⟨ts, hts, hguarded⟩ := h.guarded hs ho trivial
  have hsplit : ts = before ++ t :: mid := List.append_cancel_right (hts.symm.trans htokens)
  have hempty : 0 + (Phrase.statements body).depth ≤ ([] : List Kind).length := Nat.le_refl 0
  exact hguarded.admits hempty hsplit hleads (Nat.le_of_eq (congrArg List.length hdepth))

/-- Every `import` and `export` outside of all brackets of a body leads a declaration of it, is the
alias behind `export * as`, or stands in code behind other tokens of its line. An exported function
or class ends with its body, so there none stands directly behind it. -/
theorem SyntaxTree.placed {text : List Char} {tree : SyntaxTree} {tokens before after : List Token}
    {body : List Statement} {t : Token} (h : parse text = .ok tree)
    (hbody : tree.HasBody tokens body) (htokens : tokens = before ++ t :: after)
    (hdepth : brackets [] before = []) (hleads : t.Leads after) : Placed body before t := by
  obtain ⟨rfl, s', hend, hread⟩ := parse_eq_ok.1 h
  have hs := closed_ofChars tree.text
  have ho := ordered_ofChars tree.text
  cases hbody with
  | whole =>
      obtain ⟨ts, hts⟩ := hread.follows
      have hlast := toList_of_endOfInput hread.follows hend
      have hlist := hts
      rw [toList_ofTokens (ofChars_ne_nil tree.text), hlast, htokens] at hlist
      -- the word stands in what the body has read, or is the end of input, which is no word
      obtain ⟨mid, rfl, rfl⟩ | ⟨pre, -, hpre⟩ := exists_of_append_eq hlist
      · exact placed_of_reads hread hs ho hts.symm hdepth (hlast ▸ hleads)
      · cases pre with
        | nil =>
            have hcurrent : s'.current = t := (List.cons.inj hpre).1
            obtain hkind | hkind := hleads.kind <;>
              simp [← hcurrent, show s'.current.kind = .endOfInput from hend] at hkind
        | cons u pre => simp at hpre
  | @declared d hd =>
      obtain ⟨opening, closing, hbody⟩ := hread.readBehind_of_declares hd
      have hopen := hbody.opening_kind
      have hclose := hbody.closing_kind
      have hinside := (follows_advance opening).trans hbody.follows
      obtain ⟨front, inner, hall, hinner, hclosing⟩ :=
        exists_ofChars_eq hbody.follows hopen hbody.reads.follows hclose
      rw [toList_ofTokens (ofChars_ne_nil tree.text), hall] at ho
      have hfilter := filter_within ho (by rw [show opening.current.kind = _ from hopen]; simp)
        (by rw [show closing.current.kind = _ from hclose]; simp)
      rw [hbody.span, hall, hfilter] at htokens
      subst htokens
      refine placed_of_reads hbody.reads (hs.of_follows hinside)
        ((ordered_ofChars tree.text).of_follows hinside) hinner hdepth ?_
      exact hleads.append (by simp [toList, show closing.current.kind = _ from hclose])

/-- An import behind code that a line ends, in a module declaration. -/
def lineText : List Char :=
  "module m \x7b f()\nimport x from \"y\" \x7d".toList

/-- The declaration of `m` in `lineText`. -/
def lineDeclaration : ModuleDeclaration :=
  .mk (some "m") false .statement
    [.code (.mk ⟨11, 14⟩ []), .importFrom (.url "y") [.default "x"] ⟨15, 32⟩] ⟨0, 34⟩ ⟨10, 33⟩

/-- The `import` on the second line of the module is the declaration that its body has there. -/
theorem SyntaxTree.placed_line :
    parse lineText = .ok ⟨lineText, [.module lineDeclaration]⟩ ∧
      Placed lineDeclaration.body
        [⟨.identifier "f", ⟨11, 12⟩, false⟩, ⟨.leftParen, ⟨12, 13⟩, false⟩,
          ⟨.rightParen, ⟨13, 14⟩, false⟩] ⟨.keyword .«import», ⟨15, 21⟩, true⟩ := by
  have htokens : Token.ofChars lineText =
      [⟨.identifier "module", ⟨0, 6⟩, false⟩, ⟨.identifier "m", ⟨7, 8⟩, false⟩,
        ⟨.leftBrace, ⟨9, 10⟩, false⟩, ⟨.identifier "f", ⟨11, 12⟩, false⟩,
        ⟨.leftParen, ⟨12, 13⟩, false⟩, ⟨.rightParen, ⟨13, 14⟩, false⟩,
        ⟨.keyword .«import», ⟨15, 21⟩, true⟩, ⟨.identifier "x", ⟨22, 23⟩, false⟩,
        ⟨.identifier "from", ⟨24, 28⟩, false⟩, ⟨.string "y", ⟨29, 32⟩, false⟩,
        ⟨.rightBrace, ⟨33, 34⟩, false⟩, ⟨.endOfInput, ⟨34, 34⟩, false⟩] := by
    decide +kernel
  have hparse : parse lineText = .ok ⟨lineText, [.module lineDeclaration]⟩ :=
    parse_of_tokens htokens rfl
  have hinside : ((Token.ofChars lineText).filter fun t => t.span.within ⟨10, 33⟩) =
      [⟨.identifier "f", ⟨11, 12⟩, false⟩, ⟨.leftParen, ⟨12, 13⟩, false⟩,
        ⟨.rightParen, ⟨13, 14⟩, false⟩] ++ ⟨.keyword .«import», ⟨15, 21⟩, true⟩ ::
      [⟨.identifier "x", ⟨22, 23⟩, false⟩, ⟨.identifier "from", ⟨24, 28⟩, false⟩,
        ⟨.string "y", ⟨29, 32⟩, false⟩] := by
    rw [htokens]
    rfl
  refine ⟨hparse, placed hparse (.declared (.here (List.mem_singleton.2 rfl))) hinside rfl
    (.inr ⟨rfl, ?_⟩)⟩
  intro u hu
  cases hu
  simp

/-! ## Words that lead nothing -/

/-- Every `import` and `export` outside of all brackets of a body that names no property leads a
declaration of the body. -/
def SyntaxTree.WordsLead (tree : SyntaxTree) : Prop :=
  ∀ {tokens before after : List Token} {body : List Statement} {t : Token} {k : Keyword},
    tree.HasBody tokens body → tokens = before ++ t :: after → brackets [] before = [] →
    t.Leads after → (∀ u, before.getLast? = some u → u.kind ≠ .dot ∧ u.kind ≠ .operator "?.") →
    t.kind = .keyword k → ∃ st ∈ body, st.keyword? = some k ∧ st.span.start = t.span.start

/-- An export behind a function on the same line. -/
def sameLineText : List Char :=
  "function f()\x7b\x7d export let a;".toList

/-- A reserved word as an alias. -/
def aliasText : List Char :=
  "export * as import from \"m\";".toList

/-- Neither an export behind a function on its line nor an alias leads a declaration. -/
theorem SyntaxTree.exists_not_wordsLead :
    parse sameLineText = .ok ⟨sameLineText, [.code (.mk ⟨0, 28⟩ [])]⟩ ∧
      ¬WordsLead ⟨sameLineText, [.code (.mk ⟨0, 28⟩ [])]⟩ ∧
      parse aliasText = .ok ⟨aliasText, [.exportAll (.url "m") (some "import") ⟨0, 28⟩]⟩ ∧
      ¬WordsLead ⟨aliasText, [.exportAll (.url "m") (some "import") ⟨0, 28⟩]⟩ := by
  have hsameLine : Token.ofChars sameLineText =
      [⟨.keyword .«function», ⟨0, 8⟩, false⟩, ⟨.identifier "f", ⟨9, 10⟩, false⟩,
        ⟨.leftParen, ⟨10, 11⟩, false⟩, ⟨.rightParen, ⟨11, 12⟩, false⟩,
        ⟨.leftBrace, ⟨12, 13⟩, false⟩, ⟨.rightBrace, ⟨13, 14⟩, false⟩] ++
      ⟨.keyword .«export», ⟨15, 21⟩, false⟩ ::
      [⟨.keyword .«let», ⟨22, 25⟩, false⟩, ⟨.identifier "a", ⟨26, 27⟩, false⟩,
        ⟨.semicolon, ⟨27, 28⟩, false⟩, ⟨.endOfInput, ⟨28, 28⟩, false⟩] := by
    decide +kernel
  have halias : Token.ofChars aliasText =
      [⟨.keyword .«export», ⟨0, 6⟩, false⟩, ⟨.star, ⟨7, 8⟩, false⟩,
        ⟨.identifier "as", ⟨9, 11⟩, false⟩] ++
      ⟨.keyword .«import», ⟨12, 18⟩, false⟩ ::
      [⟨.identifier "from", ⟨19, 23⟩, false⟩, ⟨.string "m", ⟨24, 27⟩, false⟩,
        ⟨.semicolon, ⟨27, 28⟩, false⟩, ⟨.endOfInput, ⟨28, 28⟩, false⟩] := by
    decide +kernel
  refine ⟨parse_of_tokens hsameLine rfl, fun h => ?_, parse_of_tokens halias rfl, fun h => ?_⟩
  · obtain ⟨st, hst, hkeyword, -⟩ := h .whole hsameLine rfl (.inl rfl) (by simp) rfl
    rw [List.mem_singleton.1 hst] at hkeyword
    cases hkeyword
  · obtain ⟨st, hst, hkeyword, -⟩ := h .whole halias rfl (.inr ⟨rfl, by simp⟩) (by simp) rfl
    rw [List.mem_singleton.1 hst] at hkeyword
    cases hkeyword

end ModuleGraph
