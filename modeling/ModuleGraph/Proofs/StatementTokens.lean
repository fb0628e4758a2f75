import ModuleGraph.Proofs.DeclarationWords

/-!
# The tokens of statements

A statement spans the tokens that it is read from (`Reads.statement_spans`), and its code those
behind the words that lead it (`Reads.exists_code`). So the statements of a body stand one behind
the other, and only semicolons by themselves are in none of them (`Reads.lays`).
-/

namespace ModuleGraph

open TokenStream ModuleGraph.Parser
open Token (Kind)

/-! ## Tokens in order -/

/-- The tokens from a place on stand in order, up to an empty one that ends the input. -/
structure TokenStream.InOrder (s : TokenStream) : Prop where
  closed : s.Closed
  ordered : Token.Ordered s.toList
  ending : ∀ t ∈ s.toList, t.kind = .endOfInput → t.span.stop = t.span.start

namespace TokenStream.InOrder

variable {s s' : TokenStream} {ts : List Token} {t : Token}

/-- The tokens from a later place on are in order, too. -/
theorem of_follows (h : s.InOrder) (hs : s'.Follows s) : s'.InOrder where
  closed := h.closed.of_follows hs
  ordered := h.ordered.of_follows hs
  ending t ht := h.ending t (hs.subset ht)

/-- The tokens behind the current one are in order, too. -/
theorem advance (h : s.InOrder) : s.advance.InOrder :=
  h.of_follows (follows_advance s)

/-- A token stops no earlier than it starts. -/
theorem current_le (h : s.InOrder) : s.current.span.start ≤ s.current.span.stop :=
  h.ordered.le _ (List.mem_cons_self ..)

/-- A token that is not the end of the input is not empty. -/
theorem current_lt (h : s.InOrder) (hend : s.kind ≠ .endOfInput) :
    s.current.span.start < s.current.span.stop :=
  h.ordered.lt _ (List.mem_cons_self ..) hend

/-- A token stops before the next one starts. -/
theorem le_advance (h : s.InOrder) (hend : s.kind ≠ .endOfInput) :
    s.current.span.stop ≤ s.advance.current.span.start := by
  have hordered : Token.Ordered (s.current :: s.advance.toList) :=
    h.closed.toList_eq hend ▸ h.ordered
  exact hordered.le_of_cons (List.mem_cons_self ..)

/-- The current token stands before those behind it. -/
theorem start_le (h : s.InOrder) (ht : t ∈ s.toList) : s.current.span.start ≤ t.span.start := by
  obtain rfl | ht := List.mem_cons.1 ht
  · exact Nat.le_refl _
  · have hstop := h.ordered.le_of_cons ht
    have hle := h.current_le
    omega

/-- A token that has been passed stops before the current one starts. -/
theorem stop_le (h : s.InOrder) (hsplit : s.toList = ts ++ s'.toList) (ht : t ∈ ts) :
    t.span.stop ≤ s'.current.span.start := by
  have hordered := h.ordered.apart
  rw [hsplit] at hordered
  exact (List.pairwise_append.1 hordered).2.2 t ht _ (List.mem_cons_self ..)

end TokenStream.InOrder

/-- The tokens of a text are in order. -/
theorem inOrder_ofChars (text : List Char) : (ofTokens (Token.ofChars text)).InOrder where
  closed := closed_ofChars text
  ordered := ordered_ofChars text
  ending t ht hkind := by
    rw [toList_ofTokens (ofChars_ne_nil text)] at ht
    rw [Token.span_of_endOfInput ht hkind]

/-- A span starts with the token at one place and reaches to another place. -/
structure TokenStream.Spans (s s' : TokenStream) (span : Span) : Prop where
  start : span.start = s.current.span.start
  reaches : ∃ ts, s.toList = ts ++ s'.toList ∧ span.Reaches ts s'

/-- A span reaches over one token more that stops inside of it. -/
theorem Span.Reaches.cons {span : Span} {t : Token} {ts : List Token} {s' : TokenStream}
    (h : span.Reaches ts s') (ht : t.span.stop ≤ span.stop) : span.Reaches (t :: ts) s' where
  le := List.forall_mem_cons.2 ⟨ht, h.le⟩
  limit := h.limit

/-- How far a span reaches depends on its stop only. -/
theorem Span.Reaches.of_stop {span span' : Span} {ts : List Token} {s' : TokenStream}
    (h : span.Reaches ts s') (hstop : span'.stop = span.stop) : span'.Reaches ts s' where
  le := hstop ▸ h.le
  limit := hstop ▸ h.limit

/-! ## Module declarations and runs of code -/

/-- A module declaration reaches over its tokens. -/
theorem Reads.declaration_reaches {start : Span} {exported : Bool} {placement : Placement}
    {d : ModuleDeclaration} {s s' : TokenStream}
    (h : Reads (.declaration start exported placement d) s s') (hs : s.InOrder)
    (hbegins : Phrase.Begins s (.declaration start exported placement d)) :
    ∃ ts, s.toList = ts ++ s'.toList ∧ d.span.Reaches ts s' := by
  obtain ⟨-, -, closing, ⟨before, hbefore⟩, hclosing, -, hstop⟩ :=
    h.declaration_span hs.closed hs.ordered hbegins
  have hsplit : s.toList = before ++ [closing.current] ++ s'.toList := by
    rw [← hbefore, hclosing, List.append_assoc]
    rfl
  have hread : Token.Ordered (before ++ [closing.current]) :=
    hs.ordered.sublist (hsplit ▸ List.sublist_append_left ..)
  refine ⟨before ++ [closing.current], hsplit, fun t ht => ?_, ?_⟩
  · exact hstop ▸ (hread.le_last ht).2
  · exact hstop ▸ hs.stop_le hsplit (by simp)

/-- Where the last token so far of a run of code is: it is the first one, or behind the place. -/
def Phrase.Preceded (s : TokenStream) : Phrase → Prop
  | .code _ isFirst _ last _ _ =>
    if isFirst then last = s.current.span else last.stop ≤ s.current.span.start
  | _ => True

/-- A run of code reaches over its tokens. -/
def Phrase.Reaches (s s' : TokenStream) : Phrase → Prop
  | .code _ _ _ _ final _ => ∃ ts, s.toList = ts ++ s'.toList ∧ final.Reaches ts s'
  | _ => True

/-- A run of code reaches over its tokens, whatever modules stand in it. -/
theorem Reads.reaches {phrase : Phrase} {s s' : TokenStream} (h : Reads phrase s s')
    (hs : s.InOrder) (hpreceded : phrase.Preceded s) : phrase.Reaches s s' := by
  induction h with
  | @codeAtEnd codeEnd isFirst last s hkind =>
      refine ⟨[], rfl, by simp, ?_⟩
      cases isFirst with
      | true =>
          -- code without a token is where the input ends
          obtain rfl : last = s.current.span := hpreceded
          exact Nat.le_of_eq (hs.ending _ (List.mem_cons_self ..) hkind)
      | false => exact hpreceded
  | codeAtClose | codeAtStatement => exact ⟨[], rfl, by simp, hpreceded⟩
  | @codeAtSemicolon _ _ _ s hkind | @codeAtDeclaration _ _ s hkind =>
      have hend : s.kind ≠ .endOfInput := by simp [hkind]
      exact ⟨[s.current], hs.closed.toList_eq hend, by simp, hs.le_advance hend⟩
  | @codeModule codeEnd isFirst depth last final s s₁ s' d modules hat hmodule hcode _ ih =>
      have hfollows := hmodule.follows
      obtain ⟨ts, hts, hreaches⟩ :=
        hmodule.declaration_reaches hs ⟨kind_of_onModule hat, Nat.le_refl _, Nat.le_refl _⟩
      obtain ⟨us, hus, hreaches'⟩ := ih (hs.of_follows hfollows) hreaches.limit
      have hstop : d.span.stop ≤ final.stop := by
        obtain rfl | hfinal := hcode.ends (hs.of_follows hfollows).closed
          (hs.of_follows hfollows).ordered
        · exact Nat.le_refl _
        · have hlimit := hreaches.limit
          have hle := (hs.of_follows hfollows).current_le
          omega
      refine ⟨ts ++ us, by rw [hts, hus, List.append_assoc], fun t ht => ?_, hreaches'.limit⟩
      obtain ht | ht := List.mem_append.1 ht
      · exact Nat.le_trans (hreaches.le t ht) hstop
      · exact hreaches'.le t ht
  | @codeToken codeEnd isFirst depth last final s s' modules hgoes hcode ih =>
      obtain ⟨ts, hts, hreaches⟩ := ih hs.advance (hs.le_advance hgoes.unfinished)
      refine ⟨s.current :: ts, by rw [hs.closed.toList_eq hgoes.unfinished, hts]; rfl,
        hreaches.cons ?_⟩
      obtain rfl | hfinal := hcode.ends hs.advance.closed hs.advance.ordered
      · exact Nat.le_refl _
      · have hle := hs.le_advance hgoes.unfinished
        have hle' := hs.advance.current_le
        omega
  | _ => trivial

/-- The code of a statement spans its tokens. -/
theorem Reads.code_spans {codeEnd : CodeEnd} {final : Span} {modules : List ModuleDeclaration}
    {s s' : TokenStream} (h : Reads (.code codeEnd true 0 s.current.span final modules) s s')
    (hs : s.InOrder) : s.Spans s' (s.current.span.cover final) := by
  obtain ⟨hstart, hstop⟩ := h.code_span hs.closed hs.ordered
  have hpreceded : Phrase.Preceded s (.code codeEnd true 0 s.current.span final modules) := rfl
  obtain ⟨ts, hts, hreaches⟩ := h.reaches hs hpreceded
  exact ⟨hstart, ts, hts, hreaches.of_stop hstop⟩

/-! ## Statements -/

section Statements

variable {st : Statement} {s s' : TokenStream}

/-- An export reaches over its tokens behind `export`. -/
theorem Reads.exported_reaches {start : Span} (h : Reads (.exported start st) s s')
    (hs : s.InOrder) (hbegins : Phrase.Begins s (.exported start st)) :
    start.stop ≤ st.span.stop ∧ ∃ ts, s.toList = ts ++ s'.toList ∧ st.span.Reaches ts s' := by
  obtain ⟨u, hu, rfl, hkind, ho⟩ := hbegins
  -- `u` is the word `export`, which the statement starts with but which has been read before
  have hle : u.span.stop ≤ s.current.span.start := ho.le_of_cons (List.mem_cons_self ..)
  have hcurrent := hs.current_le
  cases h with
  | @exportModule _ _ _ d hat hread =>
      have hbegins : Phrase.Begins s (.declaration u.span true .statement d) :=
        begins_exportModule hs.ordered hat ⟨u, hu, rfl, hkind, ho⟩
      obtain ⟨-, -, closing, hclosing, -, -, hstop⟩ :=
        hread.declaration_span hs.closed hs.ordered hbegins
      have hbehind := (hs.ordered.le_of_follows hclosing).2
      refine ⟨?_, hread.declaration_reaches hs hbegins⟩
      show u.span.stop ≤ d.span.stop
      omega
  | exportAll hkind hread =>
      obtain ⟨_, _, span, ts, rfl, -, hts, -, hreaches⟩ := span_of_exportAll
        (fun _ => Clausal.trivial) (fun _ _ _ _ => .intro) hs.closed hkind hu ho rfl hread
      exact ⟨hreaches.le u (List.mem_cons_self ..), ts, hts,
        fun t ht => hreaches.le t (List.mem_cons_of_mem _ ht), hreaches.limit⟩
  | exportNames hkind hread =>
      obtain ⟨_, _, span, ts, rfl, -, hts, -, hreaches⟩ :=
        span_of_exportNames Clausal.trivial hs.closed hkind hu ho rfl hread
      exact ⟨hreaches.le u (List.mem_cons_self ..), ts, hts,
        fun t ht => hreaches.le t (List.mem_cons_of_mem _ ht), hreaches.limit⟩
  | @exportDefault _ _ _ final _ hdefault hcode =>
      have hend : s.kind ≠ .endOfInput := by simp [hdefault]
      obtain ⟨-, ts, hts, hreaches⟩ := hcode.code_spans hs.advance
      have hnext := hs.le_advance hend
      have hle' := hs.advance.current_le
      have hstop : s.advance.current.span.stop ≤ (s.advance.current.span.cover final).stop :=
        Nat.le_max_left ..
      have hcover : (u.span.cover (s.advance.current.span.cover final)).stop =
          (s.advance.current.span.cover final).stop := Nat.max_eq_right (by omega)
      refine ⟨Nat.le_max_left .., s.current :: ts, ?_, ?_⟩
      · rw [hs.closed.toList_eq hend, hts, List.cons_append]
      · exact (hreaches.cons (by omega)).of_stop hcover
  | @exportDeclaration _ _ _ _ final _ _ _ hcode _ =>
      obtain ⟨-, ts, hts, hreaches⟩ := hcode.code_spans hs
      have hstop : s.current.span.stop ≤ (s.current.span.cover final).stop := Nat.le_max_left ..
      have hcover : (u.span.cover (s.current.span.cover final)).stop =
          (s.current.span.cover final).stop := Nat.max_eq_right (by omega)
      exact ⟨Nat.le_max_left .., ts, hts, hreaches.of_stop hcover⟩

/-- A statement spans its tokens. -/
theorem Reads.statement_spans (h : Reads (.statement st) s s') (hs : s.InOrder) :
    s.Spans s' st.span := by
  cases h with
  | importFrom hat hread =>
      have hend : s.kind ≠ .endOfInput := by simp [kind_of_atImport hat]
      obtain ⟨_, _, span, ts, rfl, hstart, hts, -, hreaches⟩ :=
        span_of_importFrom Clausal.trivial hs.closed hat hs.ordered hread
      refine ⟨hstart, s.current :: ts, ?_, hreaches⟩
      rw [hs.closed.toList_eq hend, hts, List.cons_append]
  | exportStatement hat hread =>
      have hend : s.kind ≠ .endOfInput := by simp [atKeyword_iff.1 hat]
      have hbegins : Phrase.Begins s.advance (.exported s.current.span st) :=
        begins_exported hs.closed hs.ordered hat
      obtain ⟨-, hstart⟩ := hread.exported_leads hs.advance.closed hbegins
      obtain ⟨hstop, ts, hts, hreaches⟩ := hread.exported_reaches hs.advance hbegins
      refine ⟨hstart, s.current :: ts, ?_, hreaches.cons hstop⟩
      rw [hs.closed.toList_eq hend, hts, List.cons_append]
  | @module _ _ d hat hread =>
      have hbegins : Phrase.Begins s (.declaration s.current.span false .statement d) :=
        ⟨kind_of_atModule hat, Nat.le_refl _, Nat.le_refl _⟩
      obtain ⟨-, hstart, -⟩ := hread.declaration_span hs.closed hs.ordered hbegins
      exact ⟨hstart, hread.declaration_reaches hs hbegins⟩
  | code _ _ _ hcode => exact hcode.code_spans hs

/-- The words in front of the code of an export. -/
def Statement.leadWords : Statement → List Kind
  | .exportDeclaration .. => [.keyword .«export»]
  | .exportDefault .. => [.keyword .«export», .keyword .«default»]
  | _ => []

/-- A statement with code is its lead words and then its code. -/
structure CodeRead (st : Statement) (c : Code) (s s₁ s' : TokenStream) : Prop where
  within : c.span.within st.span = true
  leads : ∃ lead, s.toList = lead ++ s₁.toList ∧ lead.map Token.kind = st.leadWords
  reads : ∃ codeEnd final modules, c = .mk (s₁.current.span.cover final) modules ∧
    Reads (.code codeEnd true 0 s₁.current.span final modules) s₁ s'

/-- A statement with code is read from its lead words and then its code. -/
theorem Reads.exists_code {c : Code} (h : Reads (.statement st) s s') (hs : s.InOrder)
    (hc : st.code? = some c) : ∃ s₁, CodeRead st c s s₁ s' := by
  have hcover : ∀ a b : Span, b.within (a.cover b) = true :=
    fun a b => decide_eq_true ⟨Nat.min_le_right .., Nat.le_max_right ..⟩
  cases h with
  | importFrom hat hread =>
      obtain ⟨_, _, _, _, rfl, -⟩ :=
        span_of_importFrom Clausal.trivial hs.closed hat hs.ordered hread
      cases hc
  | exportStatement hat hread =>
      have hkind := atKeyword_iff.1 hat
      have hlist := hs.closed.toList_eq (by simp [hkind])
      have hbegins : Phrase.Begins s.advance (.exported s.current.span st) :=
        begins_exported hs.closed hs.ordered hat
      obtain ⟨u, hu, hstart, -, ho⟩ := hbegins
      -- only default exports and declarations have code; the words in front of it are their leads
      cases hread with
      | exportModule => cases hc
      | exportAll hstar hread =>
          obtain ⟨_, _, _, _, rfl, -⟩ := span_of_exportAll (fun _ => Clausal.trivial)
            (fun _ _ _ _ => .intro) hs.advance.closed hstar hu ho hstart.symm hread
          cases hc
      | exportNames hbrace hread =>
          obtain ⟨_, _, _, _, rfl, -⟩ := span_of_exportNames Clausal.trivial hs.advance.closed
            hbrace hu ho hstart.symm hread
          cases hc
      | exportDefault hdefault hcode =>
          cases hc
          have hlist' := hs.advance.closed.toList_eq (by simp [hdefault])
          refine ⟨s.advance.advance, hcover .., ⟨[s.current, s.advance.current], ?_, ?_⟩, _, _, _,
            rfl, hcode⟩
          · rw [hlist, hlist']
            rfl
          · rw [List.map_cons, List.map_cons, show s.current.kind = _ from hkind,
              show s.advance.current.kind = _ from hdefault]
            rfl
      | exportDeclaration _ _ hcode _ =>
          cases hc
          refine ⟨s.advance, hcover .., ⟨[s.current], hlist, ?_⟩, _, _, _, rfl, hcode⟩
          rw [List.map_cons, show s.current.kind = _ from hkind]
          rfl
  | module => cases hc
  | code _ _ _ hcode =>
      cases hc
      exact ⟨s, decide_eq_true ⟨Nat.le_refl _, Nat.le_refl _⟩, ⟨[], rfl, rfl⟩, _, _, _, rfl, hcode⟩

end Statements

/-! ## The modules of code -/

/-- A module declaration is read at a place or behind it. -/
def DeclaredBehind (d : ModuleDeclaration) (s : TokenStream) : Prop :=
  ∃ start exported placement s₁ s₂, s₁.Follows s ∧
    Phrase.Begins s₁ (.declaration start exported placement d) ∧
      Reads (.declaration start exported placement d) s₁ s₂

/-- What is declared behind a place is declared behind each earlier one. -/
theorem DeclaredBehind.of_follows {d : ModuleDeclaration} {s s' : TokenStream}
    (h : DeclaredBehind d s') (hs : s'.Follows s) : DeclaredBehind d s := by
  obtain ⟨start, exported, placement, s₁, s₂, hs₁, hread⟩ := h
  exact ⟨start, exported, placement, s₁, s₂, hs₁.trans hs, hread⟩

/-- The modules inside code stand apart, between its first and its last token. -/
structure ModulesApart (s : TokenStream) (final : Span) (modules : List ModuleDeclaration) :
    Prop where
  apart : modules.Pairwise fun d e => d.span.stop ≤ e.span.start
  between : ∀ d ∈ modules, s.current.span.start ≤ d.span.start ∧ d.span.start < d.span.stop ∧
    d.span.stop ≤ final.stop
  reads : ∀ d ∈ modules, DeclaredBehind d s

/-- The modules inside a run of code stand apart. -/
def Phrase.ModulesApart (s : TokenStream) : Phrase → Prop
  | .code _ _ _ _ final modules => ModuleGraph.ModulesApart s final modules
  | _ => True

/-- The modules inside a run of code stand apart. -/
theorem Reads.modulesApart {phrase : Phrase} {s s' : TokenStream} (h : Reads phrase s s')
    (hs : s.InOrder) : phrase.ModulesApart s := by
  induction h with
  | codeAtEnd | codeAtClose | codeAtStatement | codeAtSemicolon | codeAtDeclaration =>
      exact ⟨.nil, by simp, by simp⟩
  | @codeModule _ _ _ _ final s s₁ _ d modules hat hmodule hcode _ ih =>
      have hbegins : Phrase.Begins s (.declaration s.current.span false .nested d) :=
        ⟨kind_of_onModule hat, Nat.le_refl _, Nat.le_refl _⟩
      have hs₁ := hs.of_follows hmodule.follows
      obtain ⟨-, hstart, closing, hclosing, -, -, hstop⟩ :=
        hmodule.declaration_span hs.closed hs.ordered hbegins
      obtain ⟨ts, hts, hreaches⟩ := hmodule.declaration_reaches hs hbegins
      obtain ⟨hapart, hbetween, hreads⟩ := ih hs₁
      have hlimit := hreaches.limit
      have hle := hs₁.current_le
      have hlt := hs.current_lt (by simp [kind_of_onModule hat])
      have hbehind := (hs.ordered.le_of_follows hclosing).2
      have hfinal : d.span.stop ≤ final.stop := by
        obtain rfl | hfinal := hcode.ends hs₁.closed hs₁.ordered
        · exact Nat.le_refl _
        · omega
      refine ⟨List.pairwise_cons.2 ⟨fun e he => ?_, hapart⟩,
        List.forall_mem_cons.2 ⟨⟨by omega, by omega, hfinal⟩, fun e he => ?_⟩,
        List.forall_mem_cons.2 ⟨⟨_, _, _, s, s₁, .refl s, hbegins, hmodule⟩, fun e he =>
          (hreads e he).of_follows hmodule.follows⟩⟩
      · have hfirst := (hbetween e he).1
        omega
      · obtain ⟨hfirst, hlt', hlast⟩ := hbetween e he
        exact ⟨by omega, hlt', hlast⟩
  | @codeToken _ _ _ _ _ s _ _ hgoes _ ih =>
      obtain ⟨hapart, hbetween, hreads⟩ := ih hs.advance
      have hnext := hs.le_advance hgoes.unfinished
      have hle := hs.current_le
      refine ⟨hapart, fun d hd => ?_, fun d hd => (hreads d hd).of_follows (follows_advance s)⟩
      obtain ⟨hfirst, hlt, hlast⟩ := hbetween d hd
      exact ⟨by omega, hlt, hlast⟩
  | _ => trivial

/-- A declaration among those of a statement, but in no other one there. -/
theorem Reads.declaredBehind_of_mem {st : Statement} {d : ModuleDeclaration} {s s' : TokenStream}
    (h : Reads (.statement st) s s') (hs : s.InOrder) (hd : d ∈ st.modules) :
    DeclaredBehind d s := by
  cases hcode : st.code? with
  | some c =>
      obtain ⟨s₁, -, ⟨lead, hlead, -⟩, codeEnd, final, modules, rfl, hread⟩ :=
        h.exists_code hs hcode
      have hs₁ : s₁.Follows s := ⟨lead, hlead.symm⟩
      have hmodules : ModulesApart s₁ final modules := hread.modulesApart (hs.of_follows hs₁)
      refine (hmodules.reads d ?_).of_follows hs₁
      cases st <;> cases hcode <;> exact hd
  | none =>
      -- without code the only module of a statement is the statement itself
      obtain ⟨e, rfl⟩ : ∃ e, st = .module e := by
        cases st <;> simp [Statement.modules, Statement.code?] at hd hcode
        exact ⟨_, rfl⟩
      obtain rfl := List.mem_singleton.1 hd
      cases h with
      | importFrom hat hread =>
          obtain ⟨_, _, _, _, hst, -⟩ :=
            span_of_importFrom Clausal.trivial hs.closed hat hs.ordered hread
          cases hst
      | exportStatement hat hread =>
          have hbegins : Phrase.Begins s.advance (.exported s.current.span (.module d)) :=
            begins_exported hs.closed hs.ordered hat
          obtain ⟨u, hu, hstart, -, ho⟩ := id hbegins
          cases hread with
          | exportModule hat hread =>
              exact ⟨_, _, _, s.advance, s', follows_advance s,
                begins_exportModule hs.advance.ordered hat hbegins, hread⟩
          | exportAll hstar hread =>
              obtain ⟨_, _, _, _, hst, -⟩ := span_of_exportAll (fun _ => Clausal.trivial)
                (fun _ _ _ _ => .intro) hs.advance.closed hstar hu ho hstart.symm hread
              cases hst
          | exportNames hbrace hread =>
              obtain ⟨_, _, _, _, hst, -⟩ := span_of_exportNames Clausal.trivial
                hs.advance.closed hbrace hu ho hstart.symm hread
              cases hst
      | module hat hread =>
          exact ⟨_, _, _, s, s', .refl s, ⟨kind_of_atModule hat, Nat.le_refl _, Nat.le_refl _⟩,
            hread⟩

/-! ## The statements of a body -/

/-- The statements between two places stand apart, and every token there is in one of them or is a
semicolon in none. -/
structure Lays (body : List Statement) (s s' : TokenStream) : Prop where
  apart : body.Pairwise fun a b => a.span.stop ≤ b.span.start
  between : ∀ st ∈ body, s.current.span.start ≤ st.span.start ∧
    st.span.start < st.span.stop ∧ st.span.stop ≤ s'.current.span.start
  tokens : ∃ ts, s.toList = ts ++ s'.toList ∧ ∀ t ∈ ts,
    (∃ st ∈ body, t.span.within st.span = true) ∨ t.kind = .semicolon ∧
      ∀ st ∈ body, t.span.stop ≤ st.span.start ∨ st.span.stop ≤ t.span.start
  reads : ∀ st ∈ body, ∃ s₁ s₂, s₁.Follows s ∧ s'.Follows s₂ ∧ Reads (.statement st) s₁ s₂

/-- The statements of a body stand apart, and only semicolons are between them. -/
theorem Reads.lays {body : List Statement} {s s' : TokenStream}
    (h : Reads (.statements body) s s') (hs : s.InOrder) : Lays body s s' := by
  generalize hphrase : Phrase.statements body = phrase at h
  induction h generalizing body with
  | nil =>
      cases hphrase
      exact ⟨.nil, by simp, ⟨[], rfl, by simp⟩, by simp⟩
  | @semicolon s s' body' hkind hbody ih =>
      cases hphrase
      have hend : s.kind ≠ .endOfInput := by simp [hkind]
      obtain ⟨hapart, hbetween, ⟨ts, hts, htokens⟩, hreads⟩ := ih hs.advance rfl
      have hnext := hs.le_advance hend
      have hle := hs.current_le
      refine ⟨hapart, fun st hst => ?_, ⟨s.current :: ts, ?_, ?_⟩, fun st hst => ?_⟩
      · obtain ⟨hstart, hrest⟩ := hbetween st hst
        exact ⟨by omega, hrest⟩
      · rw [hs.closed.toList_eq hend, hts, List.cons_append]
      · refine List.forall_mem_cons.2 ⟨.inr ⟨hkind, fun st hst => .inl ?_⟩, htokens⟩
        have hstart := (hbetween st hst).1
        omega
      · obtain ⟨s₁, s₂, hs₁, hs₂, hread⟩ := hreads st hst
        exact ⟨s₁, s₂, hs₁.of_advance, hs₂, hread⟩
  | @cons s s₁ s' st body' hend hsemicolon hstatement hbody _ ih =>
      cases hphrase
      have hfollows := hstatement.follows
      have hs₁ := hs.of_follows hfollows
      obtain ⟨hapart, hbetween, ⟨us, hus, htokens⟩, hreads⟩ := ih hs₁ rfl
      obtain ⟨hstart, ts, hts, hreaches⟩ := hstatement.statement_spans hs
      have hlimit := hreaches.limit
      -- a statement has its first token at least, so that whatever follows it starts behind this
      have hfirst : s.current.span.stop ≤ st.span.stop := by
        refine hreaches.le _ ?_
        obtain ⟨before, hbefore⟩ := hstatement.statement_follows hend
        rw [hs.closed.toList_eq hend, ← hbefore, ← List.cons_append] at hts
        rw [← List.append_cancel_right hts]
        exact List.mem_cons_self ..
      have hlt := hs.current_lt hend
      have hle := (hs.ordered.le_of_follows hfollows).1
      have hle' := (hs₁.ordered.le_of_follows hbody.follows).1
      refine ⟨List.pairwise_cons.2 ⟨fun b hb => ?_, hapart⟩,
        List.forall_mem_cons.2 ⟨⟨by omega, by omega, by omega⟩, fun b hb => ?_⟩,
        ⟨ts ++ us, by rw [hts, hus, List.append_assoc], fun t ht => ?_⟩,
        List.forall_mem_cons.2 ⟨⟨s, s₁, .refl s, hbody.follows, hstatement⟩, fun b hb => ?_⟩⟩
      · have hb := (hbetween b hb).1
        omega
      · obtain ⟨hb, hrest⟩ := hbetween b hb
        exact ⟨by omega, hrest⟩
      · obtain ht | ht := List.mem_append.1 ht
        · have hbegin := hs.start_le (hts ▸ List.mem_append_left _ ht)
          refine .inl ⟨st, List.mem_cons_self .., ?_⟩
          exact decide_eq_true ⟨hstart ▸ hbegin, hreaches.le t ht⟩
        · refine (htokens t ht).imp ?_ fun ⟨hkind, hnone⟩ => ⟨hkind, ?_⟩
          · exact fun ⟨b, hb, hwithin⟩ => ⟨b, List.mem_cons_of_mem _ hb, hwithin⟩
          · have hbegin := hs₁.start_le (hus ▸ List.mem_append_left _ ht)
            exact List.forall_mem_cons.2 ⟨.inr (by omega), hnone⟩
      · obtain ⟨s₂, s₃, hs₂, hs₃, hread⟩ := hreads b hb
        exact ⟨s₂, s₃, hs₂.trans hfollows, hs₃, hread⟩
  | _ => cases hphrase

end ModuleGraph
