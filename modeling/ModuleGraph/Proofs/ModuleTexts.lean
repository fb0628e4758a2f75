import ModuleGraph.Proofs.EmbeddedBodies
import ModuleGraph.Proofs.LineBreaks
import ModuleGraph.Proofs.Printing

/-!
# Texts as bodies of module declarations

A text that is a module is also the body of a module declaration (`SyntaxTree.parse_inModule`), with
two exceptions: texts that end in an open comment, and texts that end with `export default`.
-/

namespace ModuleGraph

open TokenStream
open ModuleGraph.Parser

/-! ## The last token of a text -/

/-- No invalid token is the last one of some tokens. -/
def EndsValid (ts : List Token) : Prop :=
  ∀ t ∈ ts.getLast?, ∀ fault, t.kind ≠ .invalid fault

namespace EndsValid

variable {t : Token} {ts us : List Token}

/-- A valid token alone ends valid. -/
theorem singleton (ht : ∀ fault, t.kind ≠ .invalid fault) : EndsValid [t] := by
  simpa [EndsValid] using ht

/-- Tokens with a valid one at their end end valid. -/
theorem append_singleton (ht : ∀ fault, t.kind ≠ .invalid fault) : EndsValid (ts ++ [t]) := by
  simpa [EndsValid] using ht

/-- Tokens that end valid go on with others that do. -/
theorem append (hts : EndsValid ts) (hus : EndsValid us) : EndsValid (ts ++ us) := by
  intro t ht
  rw [List.getLast?_append] at ht
  cases hlast : us.getLast? with
  | none =>
      rw [hlast] at ht
      exact hts t ht
  | some u =>
      rw [hlast] at ht
      exact hus t (hlast ▸ ht)

/-- The tokens of clauses end valid. -/
theorem clausal : Clausal EndsValid where
  nil := by simp [EndsValid]
  append := append
  single {t} h := singleton (by cases ht : t.kind <;> simp [ht, Token.Kind.isClausal] at h ⊢)
  names _ hclose _ := append_singleton (by simp [hclose])
  attributes _ _ hclose _ := append_singleton (by simp [hclose])

end EndsValid

/-- The tokens from one place to another end with a valid one. -/
def ValidBetween (s s' : TokenStream) : Prop :=
  ∃ ts, s.toList = ts ++ s'.toList ∧ EndsValid ts

namespace ValidBetween

variable {s s₁ s' : TokenStream}

/-- No token is between a place and itself. -/
theorem refl (s : TokenStream) : ValidBetween s s :=
  ⟨[], rfl, EndsValid.clausal.nil⟩

/-- The tokens to a place and those from it end valid if both do. -/
theorem append (h : ValidBetween s s₁) (h' : ValidBetween s₁ s') : ValidBetween s s' := by
  obtain ⟨ts, hts, hvalid⟩ := h
  obtain ⟨us, hus, hvalid'⟩ := h'
  exact ⟨ts ++ us, by rw [hts, hus, List.append_assoc], hvalid.append hvalid'⟩

/-- A valid token is the last one that stands in front of the place behind it. -/
theorem of_follows (hs : s.Closed) (hfollows : s₁.Follows s) (hend : s₁.kind ≠ .endOfInput)
    (hvalid : ∀ fault, s₁.kind ≠ .invalid fault) : ValidBetween s s₁.advance := by
  obtain ⟨ts, hts⟩ := hfollows
  refine ⟨ts ++ [s₁.current], ?_, .append_singleton hvalid⟩
  rw [← hts, (hs.of_follows ⟨ts, hts⟩).toList_eq hend, List.append_assoc]
  rfl

/-- The tokens from a valid one on end valid if those behind it do. -/
theorem cons (hs : s.Closed) (hend : s.kind ≠ .endOfInput)
    (hvalid : ∀ fault, s.kind ≠ .invalid fault) (h : ValidBetween s.advance s') :
    ValidBetween s s' :=
  (of_follows hs (.refl s) hend hvalid).append h

/-- The tokens of a statement in clauses end valid with its end if its clause does. -/
theorem of_ended {α : Type} {f : TokenStream → Except SyntaxFault (α × TokenStream)}
    {build : α → Span → Statement} {start : Span} {s₀ : TokenStream} {st : Statement}
    (hs : s.Closed) (hsome : s.previous.isSome)
    (hf : ∀ {a : α} {s₁ : TokenStream}, f s₀ = .ok (a, s₁) → ∃ ts, s.Passes ts s₁ ∧ EndsValid ts)
    (h : ended f build start s₀ = .ok (st, s')) : ValidBetween s s' := by
  obtain ⟨u, hu⟩ := Option.isSome_iff_exists.1 hsome
  obtain ⟨-, ts, -, -, -, hts, hvalid, -⟩ :=
    exists_of_ended (fun _ => EndsValid.clausal) hs hu hf h
  exact ⟨ts, hts.toList_eq, hvalid⟩

end ValidBetween

/-- What stands behind `export` has a token before it. -/
def Phrase.IsBehind (s : TokenStream) : Phrase → Prop
  | .exported .. => s.previous.isSome
  | _ => True

/-- No invalid token is the last one of what is read. The induction is on what is read. -/
theorem Reads.validBetween {phrase : Phrase} {s s' : TokenStream} (h : Reads phrase s s')
    (hs : s.Closed) (hbehind : phrase.IsBehind s) : ValidBetween s s' := by
  induction h with
  | nil | codeAtEnd | codeAtClose | codeAtStatement => exact .refl _
  | semicolon hkind _ ih =>
      exact .cons hs (by simp [hkind]) (by simp [hkind])
        (ih (hs.of_follows (follows_advance _)) trivial)
  | cons _ _ hstatement _ ihStatement ihBody =>
      exact (ihStatement hs trivial).append (ihBody (hs.of_follows hstatement.follows) trivial)
  | @importFrom s _ _ n hat hread =>
      have hkind := kind_of_atImport hat
      have hend : s.kind ≠ .endOfInput := by simp [hkind]
      have hs₁ := hs.of_follows (follows_advance s)
      rw [importDeclaration_eq] at hread
      refine .cons hs hend (by simp [hkind]) (.of_ended hs₁ ?_ (fun hread =>
        (EndsValid.clausal.importClause n).passes hs₁ hread) hread)
      rw [previous_advance (hs.ahead_ne_nil hend)]
      rfl
  | @exportStatement s _ _ hat _ ih =>
      have hkind := atKeyword_iff.1 hat
      have hend : s.kind ≠ .endOfInput := by simp [hkind]
      refine .cons hs hend (by simp [hkind]) (ih (hs.of_follows (follows_advance s)) ?_)
      rw [Phrase.IsBehind, previous_advance (hs.ahead_ne_nil hend)]
      rfl
  | module _ _ ih | exportModule _ _ ih => exact ih hs trivial
  | code _ _ _ _ ih | exportDeclaration _ _ _ _ ih => exact ih hs trivial
  | @exportAll _ s _ _ hkind hread =>
      have hs₁ := hs.of_follows (follows_advance s)
      rw [exportAllClause_eq] at hread
      refine .of_ended hs hbehind (fun hread => EndsValid.clausal.advance hs hkind rfl
        (EndsValid.clausal.allClause (fun t hname _ => ?_) hs₁ hread)) hread
      -- the alias of `export * as` may be any word or string, but no invalid token
      refine EndsValid.singleton fun fault hfault => ?_
      simp [hfault, exportName?] at hname
  | exportNames hkind hread =>
      rw [exportNamesClause_eq] at hread
      exact .of_ended hs hbehind (fun hread => EndsValid.clausal.namesClause hs hkind hread) hread
  | exportDefault hkind _ ih =>
      exact .cons hs (by simp [hkind]) (by simp [hkind])
        (ih (hs.of_follows (follows_advance _)) trivial)
  | declaration hname _ hbody hclose _ =>
      exact .of_follows hs (hbody.follows.of_advance.trans (follows_moduleName hname).of_advance)
        (by simp [hclose]) (by simp [hclose])
  | codeAtSemicolon hkind | codeAtDeclaration hkind =>
      exact .of_follows hs (.refl _) (by simp [hkind]) (by simp [hkind])
  | codeModule _ hmodule _ ihModule ihCode =>
      exact (ihModule hs trivial).append (ihCode (hs.of_follows hmodule.follows) trivial)
  | codeToken hgoes _ ih =>
      exact .cons hs hgoes.unfinished hgoes.valid (ih (hs.of_follows (follows_advance _)) trivial)

/-- The last token of a text that is parsed is valid. -/
theorem endsValid_of_parse {text : List Char} {tree : SyntaxTree} {before : List Token}
    {last : Token} (h : SyntaxTree.parse text = .ok tree)
    (htokens : Token.ofChars text = before ++ [last]) : EndsValid before := by
  obtain ⟨-, s', hend, hread⟩ := SyntaxTree.parse_eq_ok.1 h
  obtain ⟨ts, hts, hvalid⟩ := hread.validBetween (closed_ofChars text) trivial
  rw [toList_of_endOfInput hread.follows hend, toList_ofTokens (ofChars_ne_nil text),
    htokens] at hts
  obtain rfl := (List.append_inj' hts rfl).1
  exact hvalid

/-! ## Texts in a module declaration -/

namespace Text

/-- The declaration of a module `m` around a text, with the text on lines of its own. -/
def inModule (text : List Char) : List Char :=
  "module m \x7b\n".toList ++ (text ++ "\n\x7d".toList)

/-- The text behind the last token. -/
def behindTokens (text : List Char) : List Char :=
  dropBytes ((Token.ofChars text).dropLast.getLast?.elim 0 (·.span.stop)) text

/-- The text ends within a comment that is still to be closed. -/
def EndsInComment (text : List Char) : Prop :=
  Token.endsInBlock .outside (behindTokens text) = true

/-- A text without bytes is empty. -/
theorem eq_nil_of_byteLength {cs : List Char} (h : byteLength cs = 0) : cs = [] := by
  cases cs with
  | nil => rfl
  | cons c cs =>
      have := c.utf8Size_pos
      rw [byteLength] at h
      omega

end Text

namespace Token

/-- The tokens of a text are the same, moved, wherever the text stands by itself. -/
theorem tokensFrom_shift {text : List Char} {before : List Token} {last : Token}
    (h : ofChars text = before ++ [last]) (hend : last.kind = .endOfInput) (o : Nat) :
    tokensFrom false ⟨o, text⟩ = before.map (shift o) ++ [⟨.endOfInput,
      ⟨o + Text.byteLength text, o + Text.byteLength text⟩, last.newlineBefore⟩] := by
  obtain ⟨taken, rest, before₀, rfl, hstart, hbefore, htokens⟩ := tokensFrom_cut before h
  have hspan := span_of_endOfInput (t := last)
    (by rw [show tokensFrom false _ = _ from h]; simp) hend
  rw [hspan, Text.byteLength_append] at hstart
  -- what is left of the text has no bytes, since the last token is at its end
  have hrest : rest = [] := Text.eq_nil_of_byteLength (by dsimp only at hstart; omega)
  have hshift : before = before₀ := by
    rw [hbefore, show shift 0 = id from rfl, List.map_id]
  rw [hrest, List.append_nil, hshift]
  exact htokens o

/-- The text has the same tokens in front of a closing brace on a line of its own. -/
theorem tokensFrom_beforeBrace {text : List Char} {before : List Token} {last : Token}
    (h : ofChars text = before ++ [last]) (hend : last.kind = .endOfInput)
    (hvalid : EndsValid before) (hcomment : ¬Text.EndsInComment text) (o : Nat) :
    tokensFrom false ⟨o, text ++ ['\n', '\x7d']⟩ = before.map (shift o) ++
      [⟨.rightBrace, ⟨o + Text.byteLength text + 1, o + Text.byteLength text + 2⟩, true⟩,
        ⟨.endOfInput, ⟨o + Text.byteLength text + 2, o + Text.byteLength text + 2⟩, false⟩] := by
  obtain ⟨afterOperand, taken, rest, htext, hoffset, hlast, hbehind⟩ :=
    tokensFrom_before (tokensFrom_shift h hend o) (by
      intro t ht fault hfault
      rw [List.getLast?_map] at ht
      obtain ⟨u, hu, rfl⟩ := Option.map_eq_some_iff.1 ht
      exact hvalid u hu fault hfault)
  have hblank : endsInBlock .outside rest = false := by
    have hlength : Text.byteLength taken = before.getLast?.elim 0 (·.span.stop) := by
      rw [List.getLast?_map] at hoffset
      cases hlast : before.getLast? with
      | none =>
          rw [hlast] at hoffset
          simpa using hoffset
      | some u =>
          rw [hlast] at hoffset
          simp only [Option.map_some, Option.elim, shift_span, Span.shift] at hoffset ⊢
          omega
    rw [Text.EndsInComment, Text.behindTokens, h, List.dropLast_concat, ← hlength, htext,
      Text.dropBytes_append, Bool.not_eq_true] at hcomment
    exact hcomment
  have hbytes : o + Text.byteLength taken + Text.byteLength rest = o + Text.byteLength text := by
    rw [htext, Text.byteLength_append, Nat.add_assoc]
  rw [hbehind, tokensFrom_lineBreak hlast hblank, hbytes]

/-- The tokens of a text in a module declaration. -/
theorem ofChars_inModule {text : List Char} {before : List Token} {last : Token}
    (h : ofChars text = before ++ [last]) (hend : last.kind = .endOfInput)
    (hvalid : EndsValid before) (hcomment : ¬Text.EndsInComment text) :
    ofChars (Text.inModule text) =
      ⟨.identifier "module", ⟨0, 6⟩, false⟩ :: ⟨.identifier "m", ⟨7, 8⟩, false⟩ ::
        ⟨.leftBrace, ⟨9, 10⟩, false⟩ :: onNewLine (before.map (shift 11) ++
          [⟨.rightBrace, ⟨Text.byteLength text + 12, Text.byteLength text + 13⟩, true⟩,
            ⟨.endOfInput, ⟨Text.byteLength text + 13, Text.byteLength text + 13⟩, false⟩]) := by
  have hspace : ∀ rest, Parted (Gap.space.chars ++ rest) := fun rest => by simp [Parted, Gap.chars]
  have hline : ∀ rest, Parted ('\n' :: rest) := fun rest => by simp [Parted]
  have htext : Text.inModule text = Gap.nothing.chars ++ (Written.moduleWord.chars ++
      (Gap.space.chars ++ ((Lexeme.word ⟨"m", by decide⟩).chars ++ (Gap.space.chars ++
        (Lexeme.leftBrace.chars ++ '\n' :: (text ++ ['\n', '\x7d'])))))) := rfl
  have hbody := tokensFrom_beforeBrace h hend hvalid hcomment 11
  have hbytes : ∀ n, 11 + Text.byteLength text + n = Text.byteLength text + (n + 11) := by omega
  rw [hbytes, hbytes] at hbody
  rw [ofChars, htext, tokensFrom_lexeme _ _ _ (hspace _), tokensFrom_lexeme _ _ _ (hspace _),
    tokensFrom_lexeme _ _ _ (hline _), tokensFrom_lineFeed]
  exact congrArg (fun ts => _ :: _ :: _ :: onNewLine ts) hbody

end Token

namespace Embedding

variable {e : Embedding} {s s₀ : TokenStream}

/-- Two places stand for each other if the places behind them do. -/
theorem Pairs.cons (hbehind : e.Behind s.previous s₀.previous) (hend : s₀.kind ≠ .endOfInput)
    (hkind : s.kind = s₀.kind) (hspan : s.current.span = s₀.current.span.shift e.offset)
    (hline : s₀.previous.isSome → s₀.current.newlineBefore = s.current.newlineBefore)
    (hahead : s.ahead ≠ []) (hahead₀ : s₀.ahead ≠ [])
    (hnext : ∀ {s₁ s₁₀ : TokenStream}, e.Behind s₁.previous s₁₀.previous →
      s₁.toList = s.ahead → s₁₀.toList = s₀.ahead → e.Pairs s₁ s₁₀) : e.Pairs s s₀ := by
  have hadvance : ∀ {s : TokenStream}, s.ahead ≠ [] → s.advance.toList = s.ahead :=
    fun hne => (List.cons.inj (Passes.advance hne (.refl _)).toList_eq).2.symm
  refine .token hbehind hend hkind hspan hline hahead hahead₀
    (hnext ?_ (hadvance hahead) (hadvance hahead₀))
  rw [previous_advance hahead, previous_advance hahead₀]
  exact .token hkind hspan

variable {before : List Token} {last : Token}

/-- The tokens of a text stand for the same tokens in front of a closing brace. The induction is on
the tokens of the text. -/
theorem pairs_of_tokens (hbefore : ∀ t ∈ before, t.kind ≠ .endOfInput)
    (hend : last.kind = .endOfInput) (hempty : last.span.start = last.span.stop)
    (hbehind : e.Behind s.previous s₀.previous)
    (htokens : s.toList = before.map (Token.shift e.offset) ++ e.closing :: e.after)
    (htokens₀ : s₀.toList = before ++ [last]) : e.Pairs s s₀ := by
  induction before generalizing s s₀ with
  | nil =>
      obtain ⟨rfl, hahead₀⟩ := List.cons.inj htokens₀
      exact .closing hbehind hend hahead₀ hempty htokens
  | cons t before ih =>
      obtain ⟨hcurrent, hahead⟩ := List.cons.inj htokens
      obtain ⟨rfl, hahead₀⟩ := List.cons.inj htokens₀
      rw [List.forall_mem_cons] at hbefore
      refine .cons hbehind hbefore.1 (by rw [kind, hcurrent]; rfl) (by rw [hcurrent]; rfl)
        (fun _ => by rw [hcurrent]; rfl) (by simp [hahead]) (by rw [hahead₀]; simp) ?_
      intro s₁ s₁₀ hbehind₁ hlist hlist₀
      exact ih hbefore.2 hbehind₁ (hlist.trans hahead) (hlist₀.trans hahead₀)

/-- The first token of a text can stand for one on a new line. -/
theorem pairs_onNewLine (hbefore : ∀ t ∈ before, t.kind ≠ .endOfInput)
    (hend : last.kind = .endOfInput) (hempty : last.span.start = last.span.stop)
    (hbehind : e.Behind s.previous none) (hclosing : e.closing.newlineBefore = true)
    (htokens : s.toList =
      Token.onNewLine (before.map (Token.shift e.offset) ++ e.closing :: e.after)) :
    e.Pairs s (ofTokens (before ++ [last])) := by
  cases before with
  | nil =>
      refine .closing hbehind hend rfl hempty ?_
      rw [htokens, List.map_nil, List.nil_append, Token.onNewLine, ← hclosing]
  | cons t before =>
      obtain ⟨hcurrent, hahead⟩ := List.cons.inj htokens
      rw [List.forall_mem_cons] at hbefore
      refine .cons hbehind hbefore.1 (by rw [kind, hcurrent]; rfl) (by rw [hcurrent]; rfl)
        (fun hsome => by cases hsome) (by simp [hahead]) (by simp [ofTokens]) ?_
      intro s₁ s₁₀ hbehind₁ hlist hlist₀
      exact pairs_of_tokens hbefore.2 hend hempty hbehind₁ (hlist.trans hahead) hlist₀

end Embedding

/-- A text as the body of a module declaration. -/
def Text.embedding (text : List Char) : Embedding where
  offset := 11
  closing := ⟨.rightBrace, ⟨byteLength text + 12, byteLength text + 13⟩, true⟩
  after := [⟨.endOfInput, ⟨byteLength text + 13, byteLength text + 13⟩, false⟩]
  closing_kind := rfl

namespace SyntaxTree

variable {text : List Char} {tree : SyntaxTree}

/-- The tokens of the declaration around a text, with those that stand for the tokens of the
text. -/
theorem exists_pairs (h : parse text = .ok tree) (hcomment : ¬Text.EndsInComment text) :
    ∃ t ts, Token.ofChars (Text.inModule text) =
        ⟨.identifier "module", ⟨0, 6⟩, false⟩ :: ⟨.identifier "m", ⟨7, 8⟩, false⟩ ::
          ⟨.leftBrace, ⟨9, 10⟩, false⟩ :: t :: ts ∧
      (Text.embedding text).Pairs ⟨some ⟨.leftBrace, ⟨9, 10⟩, false⟩, t, ts⟩
        (ofTokens (Token.ofChars text)) := by
  obtain ⟨before, last, htokens, hend, hbefore⟩ := Token.exists_tokensFrom_eq false ⟨0, text⟩
  have hall := Token.ofChars_inModule htokens hend (endsValid_of_parse h htokens) hcomment
  have hempty : last.span.start = last.span.stop := by
    rw [Token.span_of_endOfInput (t := last) (by rw [htokens]; simp) hend]
  obtain ⟨t, ts, hinside⟩ : ∃ t ts, Token.onNewLine (before.map (Token.shift 11) ++
      (Text.embedding text).closing :: (Text.embedding text).after) = t :: ts := by
    cases before <;> exact ⟨_, _, rfl⟩
  refine ⟨t, ts, hall.trans (by rw [← hinside]; rfl), ?_⟩
  rw [Token.ofChars, htokens]
  exact Embedding.pairs_onNewLine hbefore hend hempty (.first rfl) rfl hinside.symm

/-- A text is the body of the module declaration around it, with its spans moved, if it does not end
in an open comment and no default export of it lacks its code. -/
theorem parse_inModule (h : parse text = .ok tree) (hcomment : ¬Text.EndsInComment text)
    (hcode : ∀ st ∈ tree.body, ¬st.LacksCode) :
    parse (Text.inModule text) = .ok ⟨Text.inModule text,
      [.module (.mk (some "m") false .statement (Statement.shiftAll 11 tree.body)
        ⟨0, Text.byteLength text + 13⟩ ⟨10, Text.byteLength text + 12⟩)]⟩ := by
  obtain ⟨t, ts, hall, hpairs⟩ := exists_pairs h hcomment
  obtain ⟨-, s₀', hend, hread⟩ := parse_eq_ok.1 h
  obtain ⟨s', hpairs', hbody⟩ := hread.embedded hpairs fun _ => hcode
  -- the body stops at the brace that stands for the end of the text
  obtain ⟨hclosing, hafter⟩ := List.cons.inj (hpairs'.toList_of_end hend)
  have hfinal : s'.advance.kind = .endOfInput := by
    rw [TokenStream.advance, hafter]
    rfl
  have hcover : Span.cover ⟨0, 6⟩ s'.current.span = ⟨0, Text.byteLength text + 13⟩ := by
    rw [hclosing, Span.cover, Text.embedding, Nat.zero_min, Nat.max_eq_right (by dsimp only; omega)]
  have hdeclaration := @Reads.declaration ⟨0, 6⟩ false .statement
    (ofTokens (Token.ofChars (Text.inModule text)))
    ⟨some ⟨.identifier "m", ⟨7, 8⟩, false⟩, ⟨.leftBrace, ⟨9, 10⟩, false⟩, t :: ts⟩ s' (some "m") _
    (by rw [hall]; rfl) rfl hbody (hpairs'.kind_of_end hend)
  rw [hcover, hclosing] at hdeclaration
  refine parse_eq_ok.2 ⟨rfl, s'.advance, hfinal, ?_⟩
  rw [hall] at hdeclaration ⊢
  exact .cons (by simp [ofTokens, kind]) (by simp [ofTokens, kind]) (.module rfl hdeclaration)
    (.nil (.inl hfinal))

/-- An import and a default export, with a comment up to the end of the text. -/
def defaultText : List Char :=
  "import x from \"y\"\nexport default x // end".toList

/-- The statements of `defaultText`. -/
def defaultBody : List Statement :=
  [.importFrom (.url "y") [.default "x"] ⟨0, 17⟩,
    .exportDefault "*default*" (.mk ⟨33, 34⟩ []) ⟨18, 34⟩]

/-- The text with a default export is also the body of a module, its spans moved. -/
theorem parse_inModule_defaultText : parse defaultText = .ok ⟨defaultText, defaultBody⟩ ∧
    ¬Text.EndsInComment defaultText ∧ (∀ st ∈ defaultBody, ¬st.LacksCode) ∧
    parse (Text.inModule defaultText) = .ok ⟨Text.inModule defaultText,
      [.module (.mk (some "m") false .statement (Statement.shiftAll 11 defaultBody)
        ⟨0, 54⟩ ⟨10, 53⟩)]⟩ := by
  have htokens : Token.ofChars defaultText =
      [⟨.keyword .«import», ⟨0, 6⟩, false⟩, ⟨.identifier "x", ⟨7, 8⟩, false⟩,
        ⟨.identifier "from", ⟨9, 13⟩, false⟩, ⟨.string "y", ⟨14, 17⟩, false⟩,
        ⟨.keyword .«export», ⟨18, 24⟩, true⟩, ⟨.keyword .«default», ⟨25, 32⟩, false⟩,
        ⟨.identifier "x", ⟨33, 34⟩, false⟩, ⟨.endOfInput, ⟨41, 41⟩, false⟩] := by
    decide +kernel
  have hparse : parse defaultText = .ok ⟨defaultText, defaultBody⟩ := parse_of_tokens htokens rfl
  have hcomment : ¬Text.EndsInComment defaultText := by
    rw [Text.EndsInComment, Text.behindTokens, htokens]
    decide +kernel
  have hcode : ∀ st ∈ defaultBody, ¬st.LacksCode := by
    simp [defaultBody, Statement.LacksCode, Code.span]
  exact ⟨hparse, hcomment, hcode, parse_inModule hparse hcomment hcode⟩

/-- A text is rejected if its tokens are no statements. -/
theorem exists_parse_eq_error {tokens : List Token} {fault : SyntaxFault}
    (htokens : Token.ofChars text = tokens) (hbody : bodyOfTokens tokens = .error fault) :
    ∃ e, parse text = .error e :=
  ⟨.ofFault text fault, by rw [parse, htokens, hbody]⟩

/-- An open comment is not missed at the end of a text, and neither is the code of a default export,
but they are within a module declaration. -/
theorem exists_parse_inModule_error :
    parse "/* open".toList = .ok ⟨"/* open".toList, []⟩ ∧
      (∃ e, parse (Text.inModule "/* open".toList) = .error e) ∧
    parse "export default".toList =
        .ok ⟨"export default".toList, [.exportDefault "*default*" (.mk ⟨14, 14⟩ []) ⟨0, 14⟩]⟩ ∧
      (∃ e, parse (Text.inModule "export default".toList) = .error e) := by
  have hopen : Token.ofChars "/* open".toList = [⟨.endOfInput, ⟨7, 7⟩, false⟩] := by
    decide +kernel
  have hopenInside : Token.ofChars (Text.inModule "/* open".toList) =
      [⟨.identifier "module", ⟨0, 6⟩, false⟩, ⟨.identifier "m", ⟨7, 8⟩, false⟩,
        ⟨.leftBrace, ⟨9, 10⟩, false⟩, ⟨.endOfInput, ⟨20, 20⟩, true⟩] := by
    decide +kernel
  have hdefault : Token.ofChars "export default".toList =
      [⟨.keyword .«export», ⟨0, 6⟩, false⟩, ⟨.keyword .«default», ⟨7, 14⟩, false⟩,
        ⟨.endOfInput, ⟨14, 14⟩, false⟩] := by
    decide +kernel
  have hdefaultInside : Token.ofChars (Text.inModule "export default".toList) =
      [⟨.identifier "module", ⟨0, 6⟩, false⟩, ⟨.identifier "m", ⟨7, 8⟩, false⟩,
        ⟨.leftBrace, ⟨9, 10⟩, false⟩, ⟨.keyword .«export», ⟨11, 17⟩, true⟩,
        ⟨.keyword .«default», ⟨18, 25⟩, false⟩, ⟨.rightBrace, ⟨26, 27⟩, true⟩,
        ⟨.endOfInput, ⟨27, 27⟩, false⟩] := by
    decide +kernel
  exact ⟨parse_of_tokens hopen rfl, exists_parse_eq_error hopenInside rfl,
    parse_of_tokens hdefault rfl, exists_parse_eq_error hdefaultInside rfl⟩

end SyntaxTree

end ModuleGraph
