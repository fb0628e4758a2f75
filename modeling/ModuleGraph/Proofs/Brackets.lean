import ModuleGraph.Proofs.Grammar

/-!
# Bracket depth

The brackets that are open behind some tokens (`Token.brackets`), and what can be said of the words
`import` and `export` among them that stand in no more brackets than the tokens begin in
(`Guarded`). A closing bracket closes the innermost open bracket, of whatever kind, but a brace is
closed by a brace only.
-/

namespace ModuleGraph

open TokenStream
open Token (Kind)
open ModuleGraph.Parser

namespace Token

/-- Whether a token closes the given open bracket. -/
def Kind.closes (k opening : Kind) : Bool :=
  match k with
  | .rightBrace => true
  | .rightParen | .rightBracket => opening != .leftBrace
  | _ => false

/-- The open brackets behind a token, innermost first. -/
def bracketsAfter (stack : List Kind) (k : Kind) : List Kind :=
  if k.isOpenBracket then k :: stack
  else
    match stack with
    | [] => []
    | opening :: outer => if k.closes opening then outer else stack

/-- The open brackets behind tokens, innermost first, where those of `stack` are open before. -/
def brackets (stack : List Kind) (ts : List Token) : List Kind :=
  ts.foldl (fun stack t => bracketsAfter stack t.kind) stack

@[simp] theorem brackets_nil (stack : List Kind) : brackets stack [] = stack := rfl

@[simp] theorem brackets_cons (stack : List Kind) (t : Token) (ts : List Token) :
    brackets stack (t :: ts) = brackets (bracketsAfter stack t.kind) ts := rfl

@[simp] theorem brackets_append (stack : List Kind) (ts us : List Token) :
    brackets stack (ts ++ us) = brackets (brackets stack ts) us :=
  List.foldl_append ..

/-- Only a closing bracket closes an open one. -/
theorem Kind.isCloseBracket_of_closes {k opening : Kind} (h : k.closes opening = true) :
    k.isCloseBracket = true := by
  cases k <;> first | rfl | simp [closes] at h

variable {stack : List Kind} {k : Kind}

/-- An opening bracket is the innermost one behind itself. -/
theorem bracketsAfter_open (h : k.isOpenBracket = true) : bracketsAfter stack k = k :: stack := by
  rw [bracketsAfter.eq_def, if_pos h]

/-- A token that is no closing bracket closes none. -/
theorem length_bracketsAfter_ge (stack : List Kind) (h : k.isCloseBracket = false) :
    stack.length ≤ (bracketsAfter stack k).length := by
  unfold bracketsAfter
  split
  · exact Nat.le_succ _
  · split
    · exact Nat.le_refl _
    · next opening outer =>
        split
        · next hcloses => simp [Kind.isCloseBracket_of_closes hcloses] at h
        · exact Nat.le_refl _

/-- A token closes one bracket at most. -/
theorem length_bracketsAfter_succ_ge (stack : List Kind) (k : Kind) :
    stack.length ≤ (bracketsAfter stack k).length + 1 := by
  unfold bracketsAfter
  split
  · exact Nat.le_trans (Nat.le_succ _) (Nat.le_succ _)
  · split
    · exact Nat.le_succ _
    · split
      · exact Nat.le_refl _
      · exact Nat.le_succ _

/-- The parser counts no more brackets than are open. -/
theorem depthAfter_le {n depth : Nat} (hclose : k.isCloseBracket = true → depth ≠ 0)
    (h : n + depth ≤ stack.length) :
    n + depthAfter k depth ≤ (bracketsAfter stack k).length := by
  unfold depthAfter
  cases hopen : k.isOpenBracket with
  | true =>
      rw [if_pos rfl, bracketsAfter_open hopen, List.length_cons]
      omega
  | false =>
      rw [if_neg Bool.false_ne_true]
      cases hisClose : k.isCloseBracket with
      | true =>
          have := hclose hisClose
          have := length_bracketsAfter_succ_ge stack k
          rw [if_pos rfl]
          omega
      | false =>
          have := length_bracketsAfter_ge stack hisClose
          rw [if_neg Bool.false_ne_true]
          omega

/-- Whether an `export` or an `import` declaration can start with the token, given those behind
it. `import(` and `import.` start expressions. -/
def Leads (t : Token) (after : List Token) : Prop :=
  t.kind = .keyword .«export» ∨ t.kind = .keyword .«import» ∧
    ∀ u, after.head? = some u → u.kind ≠ .leftParen ∧ u.kind ≠ .dot

/-- A declaration is led by the keyword `export` or `import`. -/
theorem Leads.kind {t : Token} {after : List Token} (h : t.Leads after) :
    t.kind = .keyword .«export» ∨ t.kind = .keyword .«import» :=
  h.imp_right And.left

/-- What stands behind the tokens does not matter unless it is `(` or `.`. -/
theorem Leads.append {t : Token} {after rest : List Token} (h : t.Leads after)
    (hrest : ∀ u, rest.head? = some u → u.kind ≠ .leftParen ∧ u.kind ≠ .dot) :
    t.Leads (after ++ rest) := by
  refine h.imp_right fun himport => ⟨himport.1, ?_⟩
  cases after with
  | nil => exact hrest
  | cons u after => exact himport.2

/-- A token that is no bracket and leads no declaration. -/
def Kind.isPlain : Kind → Bool
  | .keyword .«import» | .keyword .«export» => false
  | k => !k.isOpenBracket && !k.isCloseBracket

/-- A plain token closes no bracket. -/
theorem Kind.isCloseBracket_of_isPlain (h : k.isPlain = true) : k.isCloseBracket = false := by
  cases k <;> first | rfl | cases h

/-- A plain token does not change the depth. -/
theorem Kind.depthAfter_of_isPlain (h : k.isPlain = true) (depth : Nat) :
    depthAfter k depth = depth := by
  cases k <;> first | rfl | cases h

end Token

open Token

/-- At least `n` brackets are open behind each of the tokens, and before them. -/
def Stays (n : Nat) (stack : List Kind) (ts : List Token) : Prop :=
  ∀ pre, pre <+: ts → n ≤ (brackets stack pre).length

namespace Stays

variable {n : Nat} {stack : List Kind} {t : Token} {ts us : List Token}

/-- No tokens stay as deep as the brackets that are open before them. -/
theorem nil (h : n ≤ stack.length) : Stays n stack [] := by
  intro pre hpre
  rw [List.prefix_nil.1 hpre]
  exact h

/-- Tokens stay deep if enough brackets are open before the first of them and the rest stays deep
behind it. -/
theorem cons (h : n ≤ stack.length) (hts : Stays n (bracketsAfter stack t.kind) ts) :
    Stays n stack (t :: ts) := by
  intro pre hpre
  cases pre with
  | nil => exact h
  | cons u pre =>
      obtain ⟨rfl, hpre'⟩ := List.cons_prefix_cons.1 hpre
      exact hts pre hpre'

/-- Tokens stay deep if a first part of them does and the others do behind it. -/
theorem append (hts : Stays n stack ts) (hus : Stays n (brackets stack ts) us) :
    Stays n stack (ts ++ us) := by
  induction ts generalizing stack with
  | nil => exact hus
  | cons t ts ih =>
      refine .cons (hts [] List.nil_prefix) (ih (fun pre hpre => ?_) hus)
      exact hts (t :: pre) (List.cons_prefix_cons.2 ⟨rfl, hpre⟩)

/-- Enough brackets are still open behind tokens that stay deep. -/
theorem length_le (h : Stays n stack ts) : n ≤ (brackets stack ts).length :=
  h ts List.prefix_rfl

end Stays

/-- An open brace is only closed by a closing brace. -/
theorem suffix_brackets {base stack : List Kind} {ts : List Token}
    (hts : ∀ t ∈ ts, t.kind ≠ .rightBrace) (h : .leftBrace :: base <:+ stack) :
    .leftBrace :: base <:+ brackets stack ts := by
  induction ts generalizing stack with
  | nil => exact h
  | cons t ts ih =>
      refine ih (fun u hu => hts u (List.mem_cons_of_mem _ hu)) ?_
      show .leftBrace :: base <:+ bracketsAfter stack t.kind
      unfold bracketsAfter
      split
      · exact h.trans (List.suffix_cons ..)
      · split
        · exact h
        · next opening outer =>
            split
            · next hcloses =>
                obtain heq | hsuffix := List.suffix_cons_iff.1 h
                · -- the brace itself is the innermost one
                  cases heq
                  have hkind := hts t (List.mem_cons_self ..)
                  cases ht : t.kind <;> simp [ht, Kind.closes] at hcloses hkind
                · exact hsuffix
            · exact h

/-- Among the tokens `ts` before `rest`, read `depth` brackets deep: no bracket is closed that was
open outside of these, and a word that leads a declaration outside of them is where `Admits` says,
given the tokens before it. -/
structure Guarded (depth : Nat) (Admits : List Token → Token → Prop) (ts rest : List Token) :
    Prop where
  stays : ∀ {n : Nat} {stack : List Kind}, n + depth ≤ stack.length → Stays n stack ts
  admits : ∀ {n : Nat} {stack : List Kind} {pre mid : List Token} {t : Token},
    n + depth ≤ stack.length → ts = pre ++ t :: mid → t.Leads (mid ++ rest) →
    (brackets stack pre).length ≤ n → Admits pre t

namespace Guarded

variable {depth : Nat} {Admits Admits' : List Token → Token → Prop} {t : Token}
  {ts us rest : List Token}

/-- Where there are no tokens, none is to be guarded. -/
theorem nil : Guarded depth Admits [] rest where
  stays h := .nil (by omega)
  admits _ h := by simp at h

/-- Tokens are guarded if the first of them is and the others are behind it. -/
theorem cons (hclose : t.kind.isCloseBracket = true → depth ≠ 0)
    (hts : Guarded (depthAfter t.kind depth) Admits' ts rest)
    (hhead : depth = 0 → t.Leads (ts ++ rest) → Admits [] t)
    (htail : ∀ {pre : List Token} {u : Token}, (pre = [] → depthAfter t.kind depth = 0) →
      Admits' pre u → Admits (t :: pre) u) : Guarded depth Admits (t :: ts) rest where
  stays h := .cons (by omega) (hts.stays (depthAfter_le hclose h))
  admits {n stack pre mid u} h hsplit hleads hlength := by
    have hdepth := depthAfter_le hclose h
    cases pre with
    | nil =>
        cases hsplit
        rw [brackets_nil] at hlength
        exact hhead (by omega) hleads
    | cons t' pre =>
        cases hsplit
        rw [brackets_cons] at hlength
        refine htail (fun hpre => ?_) (hts.admits hdepth rfl hleads hlength)
        rw [hpre, brackets_nil] at hlength
        omega

/-- A plain token in front leaves guarded tokens guarded. -/
theorem cons_plain (h : t.kind.isPlain = true) (hts : Guarded depth Admits' ts rest)
    (htail : ∀ {pre : List Token} {u : Token}, Admits' pre u → Admits (t :: pre) u) :
    Guarded depth Admits (t :: ts) rest := by
  have hdepth : depthAfter t.kind depth = depth := Token.Kind.depthAfter_of_isPlain h depth
  refine .cons (fun hclose => ?_) (hdepth.symm ▸ hts) (fun _ hleads => ?_) (fun _ => htail)
  · rw [Token.Kind.isCloseBracket_of_isPlain h] at hclose
    cases hclose
  · obtain hkind | hkind := hleads.kind <;> rw [hkind] at h <;> cases h

/-- A reserved word, which may lead a declaration. -/
theorem cons_keyword {k : Keyword} (hkind : t.kind = .keyword k) (hts : Guarded 0 Admits' ts rest)
    (hhead : Admits [] t)
    (htail : ∀ {pre : List Token} {u : Token}, Admits' pre u → Admits (t :: pre) u) :
    Guarded 0 Admits (t :: ts) rest := by
  refine .cons (fun hclose => ?_) ?_ (fun _ _ => hhead) fun _ => htail
  · rw [hkind] at hclose
    cases hclose
  · rw [hkind]
    exact hts

/-- One last token that leads nothing. -/
theorem single (hclose : t.kind.isCloseBracket = true → depth ≠ 0)
    (hkind : t.kind ≠ .keyword .«export» ∧ t.kind ≠ .keyword .«import») :
    Guarded depth Admits [t] rest :=
  have hnil : Guarded (depthAfter t.kind depth) (fun _ _ => False) [] rest := .nil
  .cons hclose hnil (fun _ hleads => hleads.kind.elim (absurd · hkind.1) (absurd · hkind.2))
    fun _ h => h.elim

/-- Tokens remain guarded when more places admit the words that lead declarations there. -/
theorem mono (hts : Guarded depth Admits' ts rest)
    (h : ∀ {pre mid : List Token} {t : Token}, ts = pre ++ t :: mid → t.Leads (mid ++ rest) →
      Admits' pre t → Admits pre t) : Guarded depth Admits ts rest where
  stays := hts.stays
  admits hlength hsplit hleads hpre := h hsplit hleads (hts.admits hlength hsplit hleads hpre)

/-- Where the first tokens leave all brackets as they were. -/
theorem append {Admits'' : List Token → Token → Prop} (hts : Guarded 0 Admits' ts (us ++ rest))
    (hus : Guarded depth Admits us rest)
    (hleft : ∀ {pre : List Token} {t : Token}, Admits' pre t → Admits'' pre t)
    (hright : ∀ {pre : List Token} {t : Token}, Admits pre t → Admits'' (ts ++ pre) t) :
    Guarded depth Admits'' (ts ++ us) rest where
  stays {n stack} h := by
    have hfirst : Stays (n + depth) stack ts := hts.stays h
    exact .append (fun pre hpre => Nat.le_trans (Nat.le_add_right ..) (hfirst pre hpre))
      (hus.stays hfirst.length_le)
  admits {n stack pre mid t} h hsplit hleads hlength := by
    have hfirst : Stays (n + depth) stack ts := hts.stays h
    obtain ⟨mid', rfl, rfl⟩ | ⟨pre', rfl, rfl⟩ := exists_of_append_eq hsplit
    · rw [List.append_assoc] at hleads
      exact hleft (hts.admits (n := n + depth) h rfl hleads (by omega))
    · rw [brackets_append] at hlength
      exact hright (hus.admits hfirst.length_le rfl hleads hlength)

/-- Tokens between braces, all of them deeper than the braces. -/
theorem braces {opening closing : Token} (hopen : opening.kind = .leftBrace)
    (hclose : closing.kind = .rightBrace)
    (hts : ∀ {n : Nat} {stack : List Kind}, n ≤ stack.length →
      Stays (n + 1) (.leftBrace :: stack) ts) :
    Guarded 0 Admits (opening :: ts ++ [closing]) rest where
  stays {n stack} h := by
    have hinside := hts h
    rw [List.cons_append]
    refine .cons h ?_
    rw [hopen, bracketsAfter_open rfl]
    refine .append (fun pre hpre => Nat.le_of_succ_le (hinside pre hpre)) ?_
    have hlength := hinside.length_le
    have hsucc := length_bracketsAfter_succ_ge (brackets (.leftBrace :: stack) ts) closing.kind
    exact .cons (Nat.le_of_succ_le hlength) (.nil (by omega))
  admits {n stack pre mid t} h hsplit hleads hlength := by
    cases pre with
    | nil =>
        cases hsplit
        cases hleads.kind <;> simp_all
    | cons u pre =>
        obtain ⟨rfl, htail⟩ := List.cons.inj hsplit
        rw [brackets_cons, hopen, bracketsAfter_open rfl] at hlength
        obtain ⟨mid', rfl, rfl⟩ | ⟨pre', rfl, hclosing⟩ := exists_of_append_eq htail
        · have := hts h pre (List.prefix_append ..)
          omega
        · cases pre' with
          | nil =>
              cases hclosing
              cases hleads.kind <;> simp_all
          | cons v pre' => simp at hclosing

end Guarded

/-- The tokens from one place to another, read `depth` brackets deep, are guarded by what stands
behind them. -/
def GuardedBetween (depth : Nat) (Admits : List Token → Token → Prop) (s s' : TokenStream) : Prop :=
  ∃ ts, s.toList = ts ++ s'.toList ∧ Guarded depth Admits ts s'.toList

namespace GuardedBetween

variable {depth : Nat} {Admits Admits' : List Token → Token → Prop} {s s₁ s' : TokenStream}

/-- There are no tokens to guard between a place and itself. -/
theorem refl (s : TokenStream) : GuardedBetween depth Admits s s :=
  ⟨[], rfl, .nil⟩

/-- What is guarded remains so when more places admit the words that lead declarations there. -/
theorem mono (h : GuardedBetween depth Admits' s s')
    (himp : ∀ {pre rest : List Token} {t : Token}, s.toList = pre ++ t :: rest → t.Leads rest →
      Admits' pre t → Admits pre t) : GuardedBetween depth Admits s s' := by
  obtain ⟨ts, hts, hguarded⟩ := h
  refine ⟨ts, hts, hguarded.mono fun hsplit hleads => himp ?_ hleads⟩
  rw [hts, hsplit, List.append_assoc]
  rfl

/-- The tokens from a place on are guarded if the current one is and those behind it are. -/
theorem cons (hs : s.Closed) (hend : s.kind ≠ .endOfInput)
    (hclose : s.kind.isCloseBracket = true → depth ≠ 0)
    (h : GuardedBetween (depthAfter s.kind depth) Admits' s.advance s')
    (hhead : depth = 0 → s.current.Leads s.ahead → Admits [] s.current)
    (htail : ∀ {pre : List Token} {t : Token}, (pre = [] → depthAfter s.kind depth = 0) →
      Admits' pre t → Admits (s.current :: pre) t) : GuardedBetween depth Admits s s' := by
  obtain ⟨ts, hts, hguarded⟩ := h
  have hlist := hs.toList_eq hend
  have hahead : s.ahead = ts ++ s'.toList := (List.cons.inj hlist).2.trans hts
  refine ⟨s.current :: ts, by rw [hlist, hts, List.cons_append], ?_⟩
  exact .cons hclose hguarded (hahead ▸ hhead) htail

/-- Passing a plain token leaves the others guarded. -/
theorem cons_plain {k : Kind} (hs : s.Closed) (hkind : s.kind = k) (hk : k.isPlain = true)
    (hend : k ≠ .endOfInput) (h : GuardedBetween depth Admits' s.advance s')
    (htail : ∀ {pre : List Token} {t : Token}, Admits' pre t → Admits (s.current :: pre) t) :
    GuardedBetween depth Admits s s' := by
  subst hkind
  obtain ⟨ts, hts, hguarded⟩ := h
  exact ⟨s.current :: ts, by rw [hs.toList_eq hend, hts, List.cons_append],
    .cons_plain hk hguarded htail⟩

/-- Passing a keyword leaves the others guarded, where the keyword itself may stand. -/
theorem cons_keyword {k : Keyword} (hs : s.Closed) (hkind : s.kind = .keyword k)
    (h : GuardedBetween 0 Admits' s.advance s') (hhead : Admits [] s.current)
    (htail : ∀ {pre : List Token} {t : Token}, Admits' pre t → Admits (s.current :: pre) t) :
    GuardedBetween 0 Admits s s' := by
  obtain ⟨ts, hts, hguarded⟩ := h
  exact ⟨s.current :: ts, by rw [hs.toList_eq (by simp [hkind]), hts, List.cons_append],
    .cons_keyword hkind hguarded hhead htail⟩

/-- A token that closes no bracket from outside and leads no declaration is guarded. -/
theorem single (hs : s.Closed) (hend : s.kind ≠ .endOfInput)
    (hclose : s.kind.isCloseBracket = true → depth ≠ 0)
    (hkind : s.kind ≠ .keyword .«export» ∧ s.kind ≠ .keyword .«import») :
    GuardedBetween depth Admits s s.advance :=
  ⟨[s.current], hs.toList_eq hend, .single hclose hkind⟩

/-- Where the tokens up to a place and those behind it are guarded, all of them are. -/
theorem append {Admits'' : List Token → Token → Prop} (h : GuardedBetween 0 Admits' s s₁)
    (h' : GuardedBetween depth Admits s₁ s')
    (hleft : ∀ {pre : List Token} {t : Token}, Admits' pre t → Admits'' pre t)
    (hright : ∀ {ts pre : List Token} {t : Token}, s.toList = ts ++ s₁.toList → Admits pre t →
      Admits'' (ts ++ pre) t) : GuardedBetween depth Admits'' s s' := by
  obtain ⟨ts, hts, hguarded⟩ := h
  obtain ⟨us, hus, hguarded'⟩ := h'
  have hall : s.toList = ts ++ us ++ s'.toList := by rw [hts, hus, List.append_assoc]
  exact ⟨ts ++ us, hall, (hus ▸ hguarded).append hguarded' hleft (hright hts)⟩

end GuardedBetween

end ModuleGraph
