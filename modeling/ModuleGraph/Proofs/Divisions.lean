import ModuleGraph.Proofs.LineEnds

/-!
# Slashes behind words

A slash that starts no comment divides, or it starts a regular expression. The scanner tells by the
token before it, and by nothing else: behind an identifier, and behind the five reserved words that
stand for a value, it divides, and behind all other reserved words it starts a regular expression
(`Token.slash_behind_word`). What stands before the word plays no part, so that a slash behind a
property that is named by a reserved word is taken for the start of a regular expression
(`Token.exists_slash_not_divides`).
-/

namespace ModuleGraph.Token

/-- A token behind which a property is named. -/
def Kind.isAccess : Kind → Bool
  | .dot => true
  | .operator text => text == "?."
  | _ => false

/-- An identifier or a reserved word. -/
def Kind.isName : Kind → Bool
  | .identifier _ | .keyword _ => true
  | _ => false

/-- A token that starts with a slash and divides. -/
def Kind.divides (kind : Kind) : Bool :=
  kind = .operator "/" ∨ kind = .operator "/="

/-- What a token that starts with a slash is behind a word. -/
structure Kind.SlashBehind (word slash : Kind) : Prop where
  divides : word.endsExpression = true → slash.divides = true
  regExp : word.endsExpression = false →
    (∃ pattern flags, slash = .regExp pattern flags) ∨ slash = .invalid .unterminatedRegExp

variable {afterOperand : Bool} {text cs : List Char} {k k' k'' : Cursor} {w t : Token}

/-! ## A slash -/

/-- Two operators start with a slash. -/
theorem operators_of_slash :
    ∀ op ∈ operators, op.toList.head? = some '/' → op = "/" ∨ op = "/=" := by
  decide

/-- Behind an expression the longest operator is read. -/
theorem operator_slash (o : Nat) (cs : List Char) : (operator o '/' cs).1.divides = true := by
  have hlisted : (operators.find? fun op => op.toList.isPrefixOf ('/' :: cs)).isSome :=
    List.find?_isSome.2 ⟨"/", by decide, rfl⟩
  obtain ⟨op, hop⟩ := Option.isSome_iff_exists.1 hlisted
  have hlongest := isLongestOperator_of_find? hop
  have hhead : op.toList.head? = some '/' := by
    obtain ⟨hne, -, -⟩ := byteLength_operator op hlongest.listed
    obtain ⟨c, op', hcons⟩ := List.exists_cons_of_ne_nil hne
    have hprefix := hlongest.isPrefix
    rw [hcons] at hprefix ⊢
    rw [(List.cons_prefix_cons.1 hprefix).1]
    rfl
  rw [operator, hop]
  obtain rfl | rfl := operators_of_slash op hlongest.listed hhead <;> rfl

/-- A fault is there before the reader maps its results. -/
theorem eq_error_of_map_eq_error {ε α β : Type} {f : α → β} {e : ε} {r : Except ε α × Cursor}
    (h : r.map (Except.map f) id = (.error e, k)) : r = (.error e, k) := by
  obtain ⟨_ | a, k'⟩ := r <;> cases h
  rfl

/-- A regular expression is read to its end, or it has none. -/
theorem patternTail_error {inClass : Bool} {o : Nat} {fault : LexicalFault}
    (h : patternTail inClass o cs = (.error fault, k)) : fault = .unterminatedRegExp := by
  fun_induction patternTail inClass o cs with
  | case1 | case2 | case4 => exact (Except.error.inj (Prod.mk.inj h).1).symm
  | case3 inClass o c cs ih => exact ih (eq_error_of_map_eq_error h)
  | case5 => cases h
  | case6 inClass o c cs hend hslash hline hclose inClass' ih =>
      exact ih (eq_error_of_map_eq_error h)

/-- A regular expression is read as one, or ends nowhere. -/
theorem regExp_kind (o : Nat) (cs : List Char) :
    (∃ pattern flags, (regExp o cs).1 = .regExp pattern flags) ∨
      (regExp o cs).1 = .invalid .unterminatedRegExp := by
  unfold regExp
  split
  · exact .inl ⟨_, _, rfl⟩
  · next fault k hpattern => exact .inr (congrArg Kind.invalid (patternTail_error hpattern))

/-- What is read of a slash depends on whether an expression can end in front of it. -/
theorem significant_slash (afterOperand : Bool) (o : Nat) (cs : List Char) :
    significant afterOperand o '/' cs =
      if afterOperand then operator o '/' cs else regExp (o + 1) cs := by
  rw [significant, if_neg (by decide), plain_of_not_mem_marks (by decide), if_neg (by simp),
    if_neg (by simp)]
  cases afterOperand with
  | false => rw [if_pos ⟨rfl, rfl⟩]; rfl
  | true => rw [if_neg (by simp), if_neg (by decide), if_neg (by decide)]; rfl

/-! ## Behind a word -/

/-- The characters ahead of a place, behind the blank that stands there. -/
def ahead (k : Cursor) : List Char :=
  (skipBlank .outside false k.offset k.rest).2.rest

/-- The next token is the significant one that starts ahead. -/
theorem kind_next (h : next afterOperand k = (t, k')) {c : Char} (hahead : ahead k = c :: cs) :
    ∃ o, significant afterOperand o c cs = (t.kind, k') := by
  rw [next_eq] at h
  unfold ahead at hahead
  simp only [hahead, fromHead] at h
  cases h
  exact ⟨_, rfl⟩

/-- A slash behind a word is what the word makes of it. -/
theorem slashBehind_next (h : next w.kind.endsExpression k = (t, k'))
    (hahead : ahead k = '/' :: cs) : w.kind.SlashBehind t.kind := by
  obtain ⟨o, hread⟩ := kind_next h hahead
  rw [significant_slash] at hread
  constructor
  · intro hends
    rw [hends, if_pos rfl] at hread
    have hdivides := operator_slash o cs
    rwa [hread] at hdivides
  · intro hends
    rw [hends, if_neg (by decide)] at hread
    have hkind := regExp_kind (o + 1) cs
    rwa [hread] at hkind

/-- A substitution of a template is read token by token, as a text is. -/
theorem templateTail_next (h : next afterOperand k = (t, k')) (hend : t.kind ≠ .endOfInput)
    (hahead : (ahead k).head? ≠ some '\x60') (depth : Nat) (outer : List Nat) :
    templateTail (.code depth afterOperand) outer k = afterToken depth outer t.kind k' := by
  rw [templateTail_code]
  rw [next_eq] at h
  unfold ahead at hahead
  generalize skipBlank .outside false k.offset k.rest = blank at h hahead
  obtain ⟨newline, o, cs⟩ := blank
  cases cs with
  | nil =>
      cases h
      exact absurd rfl hend
  | cons c cs =>
      have hquote : c ≠ '\x60' := fun hc => hahead (congrArg some hc)
      simp only [fromHead, significant, if_neg hquote] at h
      cases h
      rw [atToken, if_neg hquote]

/-- No word starts with a backquote. -/
theorem head?_ahead_of_isName (h : next afterOperand k = (w, k')) (hw : w.kind.isName = true) :
    (ahead k).head? ≠ some '\x60' := by
  intro hquote
  obtain ⟨cs, hahead⟩ := List.head?_eq_some_iff.1 hquote
  obtain ⟨o, hread⟩ := kind_next h hahead
  have hkind := congrArg Prod.fst hread
  rw [significant, if_pos rfl, template] at hkind
  dsimp only at hkind
  rw [← hkind] at hw
  generalize templateTail .text [] ⟨o + 1, cs⟩ = r at hw
  obtain ⟨_ | _, k₁⟩ := r <;> cases hw

/-- A name is not the end of the input. -/
theorem ne_endOfInput_of_isName (hw : w.kind.isName = true) : w.kind ≠ .endOfInput := by
  intro hend
  rw [hend] at hw
  cases hw

/-- Behind a name the scanner remembers only whether an expression has ended. -/
theorem afterToken_of_isName (hw : w.kind.isName = true) (depth : Nat) (outer : List Nat) :
    afterToken depth outer w.kind k = templateTail (.code depth w.kind.endsExpression) outer k := by
  generalize w.kind = kind at hw
  cases kind <;> first | rfl | cases hw

/-- The first of some characters that are taken is the first one there. -/
theorem head?_of_takeBytes {c : Char} {n : Nat} (h : (Text.takeBytes n cs).head? = some c) :
    cs.head? = some c := by
  cases cs with
  | nil => cases h
  | cons d cs =>
      rw [Text.takeBytes] at h
      split at h
      · cases h
      · exact h

/-- A token of a text that stands behind a word is read behind it. -/
theorem exists_next_of_tokens {before after : List Token}
    (h : ofChars text = before ++ w :: t :: after) (hw : w.kind ≠ .endOfInput) :
    ∃ k k', next w.kind.endsExpression k = (t, k') ∧
      Text.slice text t.span = Text.takeBytes t.span.length (ahead k) := by
  obtain ⟨taken, rest, rfl, hstop, htokens⟩ := tokensFrom_behind before hw h
  obtain ⟨u, k', hnext⟩ : ∃ u k', next w.kind.endsExpression ⟨w.span.stop, rest⟩ = (u, k') :=
    ⟨_, _, rfl⟩
  obtain rfl : u = t := by
    rw [tokensFrom_of_next hnext] at htokens
    split at htokens <;> exact (List.cons.inj htokens).1
  obtain ⟨blank, rest, rfl, hstart, -, hskip⟩ := next_blank hnext
  refine ⟨_, k', hnext, ?_⟩
  rw [ahead, hskip, Text.slice, hstart, hstop, Nat.zero_add, ← Text.byteLength_append,
    ← List.append_assoc, Text.dropBytes_append]

/-- The words behind which a slash divides. -/
theorem endsExpression_iff_of_isName {kind : Kind} (h : kind.isName = true) :
    kind.endsExpression = true ↔ (∃ name, kind = .identifier name) ∨
      ∃ word ∈ [Keyword.«this», .«super», .«true», .«false», .«null»], kind = .keyword word := by
  cases kind with
  | identifier name => exact iff_of_true rfl (.inl ⟨name, rfl⟩)
  | keyword word => simp [Kind.endsExpression, Keyword.isOperand]
  | _ => cases h

/-- A slash behind a word divides if the word is an identifier or stands for a value. Otherwise it
starts a regular expression, which may have no end. This is so in the tokens of a text, and in the
substitutions of templates, whatever stands before the word. -/
theorem slash_behind_word {w : Token} (hw : w.kind.isName = true) :
    (∀ text before t after, ofChars text = before ++ w :: t :: after →
      (Text.slice text t.span).head? = some '/' → w.kind.SlashBehind t.kind) ∧
    (∀ afterOperand k t k' k'', next afterOperand k = (w, k') →
      next w.kind.endsExpression k' = (t, k'') → (ahead k').head? = some '/' →
      w.kind.SlashBehind t.kind ∧ ∀ depth outer,
        templateTail (.code depth afterOperand) outer k = afterToken depth outer t.kind k'') ∧
    (w.kind.endsExpression = true ↔ (∃ name, w.kind = .identifier name) ∨
      ∃ word ∈ [Keyword.«this», .«super», .«true», .«false», .«null»], w.kind = .keyword word) := by
  refine ⟨fun text before t after htokens hslash => ?_, ?_, endsExpression_iff_of_isName hw⟩
  · obtain ⟨k, k', hnext, hslice⟩ := exists_next_of_tokens htokens (ne_endOfInput_of_isName hw)
    rw [hslice] at hslash
    obtain ⟨cs, hahead⟩ := List.head?_eq_some_iff.1 (head?_of_takeBytes hslash)
    exact slashBehind_next hnext hahead
  · intro afterOperand k t k' k'' hword hnext hslash
    obtain ⟨cs, hahead⟩ := List.head?_eq_some_iff.1 hslash
    refine ⟨slashBehind_next hnext hahead, fun depth outer => ?_⟩
    have hend : t.kind ≠ .endOfInput := by
      obtain ⟨o, hread⟩ := kind_next hnext hahead
      have hne := significant_ne_endOfInput w.kind.endsExpression o '/' cs
      rwa [hread] at hne
    rw [templateTail_next hword (ne_endOfInput_of_isName hw) (head?_ahead_of_isName hword hw),
      afterToken_of_isName hw, templateTail_next hnext hend (by simp [hahead])]

/-- Two properties with a slash behind each of them. -/
def dividedProperties : List Char :=
  "a?.of/b.in/c/g".toList

/-- Behind the property `of` a slash divides, and behind the property `in` it starts a regular
expression. -/
theorem slash_behind_word_dividedProperties : ∃ first second last,
    ofChars dividedProperties = first ++ ⟨.identifier "of", ⟨3, 5⟩, false⟩ ::
        ⟨.operator "/", ⟨5, 6⟩, false⟩ :: second ++ ⟨.keyword .«in», ⟨8, 10⟩, false⟩ ::
        ⟨.regExp "c" "g", ⟨10, 14⟩, false⟩ :: last ∧
      (Kind.identifier "of").SlashBehind (.operator "/") ∧
      (Kind.keyword .«in»).SlashBehind (.regExp "c" "g") ∧
      (Kind.identifier "of").endsExpression = true ∧
      (Kind.keyword .«in»).endsExpression ≠ true := by
  let first : List Token := [⟨.identifier "a", ⟨0, 1⟩, false⟩, ⟨.operator "?.", ⟨1, 3⟩, false⟩]
  let property : Token := ⟨.identifier "of", ⟨3, 5⟩, false⟩
  let second : List Token := [⟨.identifier "b", ⟨6, 7⟩, false⟩, ⟨.dot, ⟨7, 8⟩, false⟩]
  let reserved : Token := ⟨.keyword .«in», ⟨8, 10⟩, false⟩
  let pattern : Token := ⟨.regExp "c" "g", ⟨10, 14⟩, false⟩
  let last : List Token := [⟨.endOfInput, ⟨14, 14⟩, false⟩]
  have hall : ofChars dividedProperties = first ++ property :: ⟨.operator "/", ⟨5, 6⟩, false⟩ ::
      second ++ reserved :: pattern :: last := by
    decide +kernel
  obtain ⟨hdivides, -, hvalue⟩ := slash_behind_word (w := property) rfl
  obtain ⟨hregExp, -, hnoValue⟩ := slash_behind_word (w := reserved) rfl
  refine ⟨first, second, last, hall, ?_, ?_, hvalue.2 (.inl ⟨_, rfl⟩), fun h => ?_⟩
  · exact hdivides _ first _ (second ++ reserved :: pattern :: last) hall (by decide +kernel)
  · exact hregExp _ _ _ last hall (by decide +kernel)
  · obtain ⟨name, hname⟩ | ⟨word, hword, hkind⟩ := hnoValue.1 h
    · cases hname
    · cases hkind
      exact absurd hword (by decide)

/-- A slash behind a property that is named by a reserved word does not divide. -/
theorem exists_slash_not_divides : ∃ text before d w t after,
    ofChars text = before ++ d :: w :: t :: after ∧ d.kind.isAccess = true ∧
      w.kind.isName = true ∧ (Text.slice text t.span).head? = some '/' ∧
      t.kind.divides = false :=
  ⟨"a.in/b".toList, [⟨.identifier "a", ⟨0, 1⟩, false⟩], ⟨.dot, ⟨1, 2⟩, false⟩,
    ⟨.keyword .«in», ⟨2, 4⟩, false⟩, ⟨.invalid .unterminatedRegExp, ⟨4, 6⟩, false⟩,
    [⟨.endOfInput, ⟨6, 6⟩, false⟩], by decide +kernel, rfl, rfl, by decide +kernel, rfl⟩

end ModuleGraph.Token
