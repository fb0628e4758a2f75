import ModuleGraph.Proofs.Balance

/-!
# Binding patterns

Variable declarations as they are written: patterns nested to any depth, each with or without an
initializer. Initializers, default values and computed keys are any tokens with balanced brackets
and without a comma or semicolon outside of them (`Expression`). `boundNames_variableDeclaration` is
the main statement: the names read off the tokens of a declaration are those of its patterns, in
their order.

A pattern is read with any tokens behind it, so that the readers follow the syntax: each takes the
tokens of its own part and leaves the rest.
-/

namespace ModuleGraph

open Token (Kind)

/-! ## Expressions -/

namespace Token.Kind

/-- The number of opening brackets less that of closing ones, of all kinds together. -/
def height : List Kind → Int
  | [] => 0
  | k :: ks => k.rise + height ks

@[simp] theorem height_nil : height [] = 0 := rfl

@[simp] theorem height_cons (k : Kind) (ks : List Kind) :
    height (k :: ks) = k.rise + height ks := rfl

/-- Whether the token ends an expression that it does not stand inside of. -/
def separates (k : Kind) : Bool :=
  k == .comma || k == .semicolon

/-- A token opens a bracket and raises the depth, closes one and lowers it, or does neither. -/
theorem rise_cases (k : Kind) :
    k.isOpenBracket = true ∧ k.isCloseBracket = false ∧ k.rise = 1 ∨
    k.isOpenBracket = false ∧ k.isCloseBracket = true ∧ k.rise = -1 ∨
    k.isOpenBracket = false ∧ k.isCloseBracket = false ∧ k.rise = 0 := by
  cases k <;> simp [rise, isOpenBracket, isCloseBracket]

/-- Read `depth` brackets deep, the tokens close no bracket that is not open, and all their commas
and semicolons stand inside brackets. -/
structure Encloses (depth : Nat) (ks : List Kind) : Prop where
  nonneg : ∀ n ≤ ks.length, 0 ≤ (depth : Int) + height (ks.take n)
  inside : ∀ n (h : n < ks.length), ks[n].separates → 0 < (depth : Int) + height (ks.take n)

instance (depth : Nat) (ks : List Kind) : Decidable (Encloses depth ks) :=
  decidable_of_iff ((∀ n ≤ ks.length, 0 ≤ (depth : Int) + height (ks.take n)) ∧
      ∀ n (h : n < ks.length), ks[n].separates → 0 < (depth : Int) + height (ks.take n))
    ⟨fun h => ⟨h.1, h.2⟩, fun h => ⟨h.nonneg, h.inside⟩⟩

/-- The first token leads to another depth, at which the others are read. -/
theorem Encloses.exists_next {depth : Nat} {k : Kind} {ks : List Kind}
    (h : Encloses depth (k :: ks)) : ∃ next : Nat, (next : Int) = depth + k.rise ∧
      (k.separates → 0 < depth) ∧ Encloses next ks := by
  have hnext : 0 ≤ (depth : Int) + k.rise := by simpa using h.nonneg 1 (by simp)
  refine ⟨((depth : Int) + k.rise).toNat, Int.toNat_of_nonneg hnext, fun hk => ?_, ?_, ?_⟩
  · simpa using h.inside 0 (by simp) hk
  · intro n hn
    have hle := h.nonneg (n + 1) (by simpa using hn)
    rw [List.take_succ_cons, height_cons] at hle
    omega
  · intro n hn hk
    have hlt := h.inside (n + 1) (by simpa using hn) hk
    rw [List.take_succ_cons, height_cons] at hlt
    omega

/-- What takes tokens one by one, with the depth at which each is read, passes them. -/
theorem Encloses.passes (read : Nat → List Kind → List Kind) {ks : List Kind} {depth next : Nat}
    (hread : ∀ {depth next : Nat} {k : Kind} {ks : List Kind}, (next : Int) = depth + k.rise →
      (k.separates → 0 < depth) → read depth (k :: ks) = read next ks)
    (h : Encloses depth ks) (hnext : (next : Int) = depth + height ks) (rest : List Kind) :
    read depth (ks ++ rest) = read next rest := by
  induction ks generalizing depth with
  | nil =>
      obtain rfl : next = depth := by
        rw [height_nil] at hnext
        omega
      rfl
  | cons k ks ih =>
      obtain ⟨depth', hdepth', hk, hks⟩ := h.exists_next
      rw [height_cons] at hnext
      rw [List.cons_append, hread hdepth' hk]
      exact ih hks (by omega)

end Token.Kind

/-- The tokens of an expression: their brackets are balanced, and no comma or semicolon stands
outside of them. -/
structure Expression where
  kinds : List Kind
  encloses : Kind.Encloses 0 kinds
  balanced : Kind.height kinds = 0

/-! ## Skipping -/

section Skipping

variable {depth next : Nat} {k : Kind} {ks : List Kind}

/-- An expression goes on over a token that does not end it. -/
theorem skipExpression_cons (hnext : (next : Int) = depth + k.rise)
    (hk : k.separates → 0 < depth) : skipExpression depth (k :: ks) = skipExpression next ks := by
  have hplain : depth = 0 → ¬(k = .comma ∨ k = .semicolon) := by
    rintro rfl
    simpa [Kind.separates] using mt hk (Nat.lt_irrefl 0)
  obtain ⟨hopen, hclose, hrise⟩ | ⟨hopen, hclose, hrise⟩ | ⟨hopen, hclose, hrise⟩ := k.rise_cases
  · obtain rfl : next = depth + 1 := by omega
    cases depth with
    | zero =>
        rw [skipExpression, if_neg (by simpa [hclose] using hplain rfl), if_pos hopen]
    | succ depth => rw [skipExpression, if_pos hopen]
  · obtain rfl : depth = next + 1 := by omega
    rw [skipExpression, hopen, if_neg Bool.false_ne_true, if_pos hclose]
  · obtain rfl : next = depth := by omega
    cases next with
    | zero =>
        rw [skipExpression, if_neg (by simpa [hclose] using hplain rfl), hopen]
        rfl
    | succ depth =>
        rw [skipExpression, hopen, hclose]
        rfl

/-- A group goes on over a token that leaves its brackets open. -/
theorem skipGroup_cons (hnext : (next : Int) = depth + k.rise) :
    skipGroup (depth + 1) (k :: ks) = skipGroup (next + 1) ks := by
  obtain ⟨hopen, hclose, hrise⟩ | ⟨hopen, hclose, hrise⟩ | ⟨hopen, hclose, hrise⟩ := k.rise_cases
  · obtain rfl : next = depth + 1 := by omega
    rw [skipGroup, if_pos hopen]
  · obtain rfl : depth = next + 1 := by omega
    rw [skipGroup, hopen, if_neg Bool.false_ne_true, if_pos hclose, if_neg (by omega)]
    rfl
  · obtain rfl : next = depth := by omega
    rw [skipGroup, hopen, hclose]
    rfl

end Skipping

namespace Expression

variable (e : Expression)

/-- An expression ends as deep as it begins. -/
theorem returns : ((0 : Nat) : Int) = (0 : Nat) + Kind.height e.kinds := by
  simp [e.balanced]

/-- An expression as it is written is skipped to its end. -/
theorem skipExpression_kinds (rest : List Kind) :
    skipExpression 0 (e.kinds ++ rest) = skipExpression 0 rest :=
  e.encloses.passes skipExpression skipExpression_cons e.returns rest

/-- A computed key is skipped with its brackets. -/
theorem skipGroup_kinds (rest : List Kind) :
    skipGroup 1 (e.kinds ++ .rightBracket :: rest) = rest :=
  e.encloses.passes (fun depth => skipGroup (depth + 1)) (fun hnext _ => skipGroup_cons hnext)
    e.returns (.rightBracket :: rest)

end Expression

/-- An initializer or default value as it is written, where there is one. -/
def initializer : Option Expression → List Kind
  | none => []
  | some e => .equal :: e.kinds

/-- Tokens that end an initializer come next, a comma, a semicolon or a closing bracket. -/
def EndsInitializer (rest : List Kind) : Prop :=
  ∃ k ks, rest = k :: ks ∧ (k = .comma ∨ k = .semicolon ∨ k.isCloseBracket)

/-- A comma ends an initializer. -/
theorem EndsInitializer.comma (ks : List Kind) : EndsInitializer (.comma :: ks) :=
  ⟨_, _, rfl, .inl rfl⟩

/-- An initializer as it is written is skipped, and so is a missing one. -/
theorem skipInitializer_written (e? : Option Expression) {rest : List Kind}
    (hrest : EndsInitializer rest) : skipInitializer (initializer e? ++ rest) = rest := by
  obtain ⟨k, ks, rfl, hk⟩ := hrest
  cases e? with
  | none =>
      have hequal : k ≠ .equal := by
        rintro rfl
        simp [Kind.isCloseBracket] at hk
      cases k <;> first | rfl | exact absurd rfl hequal
  | some e =>
      show skipExpression 0 (e.kinds ++ k :: ks) = k :: ks
      rw [e.skipExpression_kinds, skipExpression, if_pos hk]

/-! ## Patterns -/

/-- The key of a property. -/
inductive PropertyKey where
  | identifier (name : String)
  | string (value : String)
  | number (text : String)
  | keyword (word : Keyword)
  | computed (e : Expression)

/-- A key as it is written. -/
def PropertyKey.kinds : PropertyKey → List Kind
  | .identifier name => [.identifier name]
  | .string value => [.string value]
  | .number text => [.number text]
  | .keyword word => [.keyword word]
  | .computed e => .leftBracket :: e.kinds ++ [.rightBracket]

mutual

/-- A pattern of a declaration. `trailing` tells whether a comma stands behind the last member. -/
inductive BindingPattern where
  | name (name : String)
  | object (properties : List BindingProperty) (trailing : Bool)
  | array (elements : List BindingElement) (trailing : Bool)

/-- A member of an object pattern. -/
inductive BindingProperty where
  | shorthand (name : String) (default? : Option Expression)
  | keyed (key : PropertyKey) (value : BindingPattern) (default? : Option Expression)
  | rest (target : BindingPattern)

/-- A member of an array pattern. -/
inductive BindingElement where
  | hole
  | item (pattern : BindingPattern) (default? : Option Expression)
  | rest (target : BindingPattern)

end

/-- The comma behind a member of a list. -/
def separator (trailing isLast : Bool) : List Kind :=
  if isLast && !trailing then [] else [.comma]

mutual

/-- A pattern as it is written. -/
def BindingPattern.kinds : BindingPattern → List Kind
  | .name name => [.identifier name]
  | .object ps trailing => .leftBrace :: (BindingProperty.list trailing ps ++ [.rightBrace])
  | .array es trailing => .leftBracket :: (BindingElement.list trailing es ++ [.rightBracket])

/-- A property as it is written. -/
def BindingProperty.kinds : BindingProperty → List Kind
  | .shorthand name e? => .identifier name :: initializer e?
  | .keyed key p e? => key.kinds ++ .operator ":" :: (p.kinds ++ initializer e?)
  | .rest p => .operator "..." :: p.kinds

/-- An element as it is written. -/
def BindingElement.kinds : BindingElement → List Kind
  | .hole => []
  | .item p e? => p.kinds ++ initializer e?
  | .rest p => .operator "..." :: p.kinds

/-- Properties as they are written. -/
def BindingProperty.list (trailing : Bool) : List BindingProperty → List Kind
  | [] => []
  | p :: ps => p.kinds ++ (separator trailing ps.isEmpty ++ BindingProperty.list trailing ps)

/-- Elements as they are written. -/
def BindingElement.list (trailing : Bool) : List BindingElement → List Kind
  | [] => []
  | e :: es => e.kinds ++ (separator trailing es.isEmpty ++ BindingElement.list trailing es)

end

mutual

/-- The names that a pattern binds. -/
def BindingPattern.names : BindingPattern → List String
  | .name name => [name]
  | .object ps _ => BindingProperty.namesOf ps
  | .array es _ => BindingElement.namesOf es

/-- The names that a property binds. -/
def BindingProperty.names : BindingProperty → List String
  | .shorthand name _ => [name]
  | .keyed _ p _ | .rest p => p.names

/-- The names that an element binds. -/
def BindingElement.names : BindingElement → List String
  | .hole => []
  | .item p _ | .rest p => p.names

/-- The names that properties bind. -/
def BindingProperty.namesOf : List BindingProperty → List String
  | [] => []
  | p :: ps => p.names ++ BindingProperty.namesOf ps

/-- The names that elements bind. -/
def BindingElement.namesOf : List BindingElement → List String
  | [] => []
  | e :: es => e.names ++ BindingElement.namesOf es

end

/-! ## Reading a list of members -/

/-- The names of an element of an array pattern. -/
def elementNames (n : Nat) (ks : List Kind) : List String × List Kind :=
  patternNames n (if ks.head? = some (.operator "...") then ks.drop 1 else ks)

/-- The names of a member, and those of the members behind its comma where there is one. -/
def membersNames (member members : List Kind → List String × List Kind) (ks : List Kind) :
    List String × List Kind :=
  match skipInitializer (member ks).2 with
  | .comma :: rest => ((member ks).1 ++ (members rest).1, (members rest).2)
  | rest => ((member ks).1, rest.drop 1)

section Members

variable {n : Nat} {k : Kind} {ks : List Kind}

/-- The names of properties are read on where no brace closes them. -/
theorem propertiesNames_cons (hk : k ≠ .rightBrace) :
    propertiesNames (n + 1) (k :: ks) =
      membersNames (propertyNames n) (propertiesNames n) (k :: ks) := by
  rw [propertiesNames]
  · rfl
  · simp
  · simpa using hk

/-- The names of elements are read on where no bracket closes them and no element is left out. -/
theorem elementsNames_cons (hk : k ≠ .rightBracket) (hcomma : k ≠ .comma) :
    elementsNames (n + 1) (k :: ks) =
      membersNames (elementNames n) (elementsNames n) (k :: ks) := by
  rw [elementsNames]
  · rfl
  · simp
  · simpa using hk
  · simpa using hcomma

end Members

section Separators

variable {tail rest : List Kind} {close : Kind} {trailing isLast : Bool}

/-- Behind a member comes its comma, or the bracket that closes the list. -/
theorem endsInitializer_separator (hclose : close.isCloseBracket) (hlast : isLast → tail = []) :
    EndsInitializer (separator trailing isLast ++ (tail ++ close :: rest)) := by
  unfold separator
  split
  · next hend =>
      rw [hlast (by grind)]
      exact ⟨close, rest, rfl, .inr (.inr hclose)⟩
  · exact .comma _

/-- Members are read with the closing bracket behind them if the first of them is read and, where a
comma follows it, the others are. -/
theorem membersNames_written {member members : List Kind → List String × List Kind}
    {ks : List Kind} {names more : List String}
    (hmember : ∀ behind, EndsInitializer behind →
      ∃ q, member (ks ++ behind) = (names, q) ∧ skipInitializer q = behind)
    (hclose : close.isCloseBracket) (hlast : isLast → tail = [] ∧ more = [])
    (hmembers : separator trailing isLast = [.comma] →
      members (tail ++ close :: rest) = (more, rest)) :
    membersNames member members (ks ++ (separator trailing isLast ++ (tail ++ close :: rest))) =
      (names ++ more, rest) := by
  obtain ⟨q, hread, hskip⟩ := hmember _ (endsInitializer_separator hclose fun h => (hlast h).1)
  rw [membersNames, hread, hskip]
  by_cases hend : (isLast && !trailing) = true
  · -- no comma follows, so that the member is the last
    obtain ⟨rfl, rfl⟩ := hlast (by grind)
    have hcomma : close ≠ .comma := by
      rintro rfl
      exact absurd hclose (by decide)
    rw [separator, if_pos hend]
    cases close <;> first | exact absurd rfl hcomma | simp
  · have hseparator : separator trailing isLast = [.comma] := if_neg hend
    simp [hseparator, hmembers hseparator]

end Separators

/-! ## Reading a pattern -/

/-- The pattern is read off its tokens, whatever follows them. -/
def BindingPattern.IsRead (p : BindingPattern) : Prop :=
  ∀ n rest, 3 * p.kinds.length ≤ n → patternNames n (p.kinds ++ rest) = (p.names, rest)

/-- The property is read off its tokens, with its default value if it has one. -/
def BindingProperty.IsRead (p : BindingProperty) : Prop :=
  ∀ n rest, 3 * p.kinds.length ≤ n → EndsInitializer rest →
    ∃ q, propertyNames n (p.kinds ++ rest) = (p.names, q) ∧ skipInitializer q = rest

/-- The element is read off its tokens, with its default value if it has one. -/
def BindingElement.IsRead (e : BindingElement) : Prop :=
  ∀ n rest, 3 * e.kinds.length ≤ n → EndsInitializer rest →
    ∃ q, elementNames n (e.kinds ++ rest) = (e.names, q) ∧ skipInitializer q = rest

namespace BindingProperty

/-- A property that is a name only is read, with or without a default value. -/
theorem isRead_shorthand (name : String) (e? : Option Expression) :
    (shorthand name e?).IsRead := by
  intro n rest hn hrest
  obtain ⟨n, rfl⟩ : ∃ m, n = m + 1 := ⟨n - 1, by simp only [kinds, List.length_cons] at hn; omega⟩
  refine ⟨initializer e? ++ rest, ?_, skipInitializer_written e? hrest⟩
  have hcolon : (initializer e? ++ rest).head? ≠ some (.operator ":") := by
    obtain ⟨k, ks, rfl, hk⟩ := hrest
    cases e? with
    | none =>
        rintro ⟨⟩
        simp [Kind.isCloseBracket] at hk
    | some e => simp [initializer]
  rw [kinds, List.cons_append, propertyNames, if_neg hcolon, names]

/-- The rest of an object is read if its pattern is. -/
theorem isRead_rest {p : BindingPattern} (h : p.IsRead) : (rest p).IsRead := by
  intro n tail hn htail
  rw [kinds, List.length_cons] at hn
  obtain ⟨n, rfl⟩ : ∃ m, n = m + 1 := ⟨n - 1, by omega⟩
  refine ⟨tail, ?_, skipInitializer_written none htail⟩
  rw [kinds, List.cons_append, propertyNames, if_pos rfl, h n tail (by omega), names]

/-- A key leads to the value behind it. -/
theorem propertyNames_key (key : PropertyKey) (n : Nat) (ks : List Kind) :
    propertyNames (n + 1) (key.kinds ++ .operator ":" :: ks) =
      valueNames n (.operator ":" :: ks) := by
  cases key with
  | computed e =>
      rw [PropertyKey.kinds, List.append_assoc, List.cons_append, propertyNames]
      exact congrArg (valueNames n) (e.skipGroup_kinds _)
  | _ => simp [PropertyKey.kinds, propertyNames]

/-- A property with a key is read if its pattern is. -/
theorem isRead_keyed {p : BindingPattern} (h : p.IsRead) (key : PropertyKey)
    (e? : Option Expression) : (keyed key p e?).IsRead := by
  intro n rest hn hrest
  simp only [kinds, List.length_append, List.length_cons] at hn
  have hkey : 0 < key.kinds.length := by cases key <;> simp [PropertyKey.kinds]
  obtain ⟨n, rfl⟩ : ∃ m, n = m + 2 := ⟨n - 2, by omega⟩
  refine ⟨initializer e? ++ rest, ?_, skipInitializer_written e? hrest⟩
  have hkinds : (keyed key p e?).kinds ++ rest =
      key.kinds ++ .operator ":" :: (p.kinds ++ (initializer e? ++ rest)) := by
    simp [kinds]
  rw [hkinds, propertyNames_key, valueNames, if_pos rfl, h n _ (by omega), names]

end BindingProperty

/-- A pattern starts with a name or an opening bracket, never like a hole, a rest element or the end
of a list. -/
theorem BindingPattern.kinds_eq_cons (p : BindingPattern) : ∃ k ks, p.kinds = k :: ks ∧
    (∀ text, k ≠ .operator text) ∧ k ≠ .comma ∧ k.isCloseBracket = false := by
  cases p <;> simp [kinds, Kind.isCloseBracket]

namespace BindingElement

/-- An element is read if its pattern is, with or without a default value. -/
theorem isRead_item {p : BindingPattern} (h : p.IsRead) (e? : Option Expression) :
    (item p e?).IsRead := by
  intro n rest hn hrest
  rw [kinds, List.length_append] at hn
  refine ⟨initializer e? ++ rest, ?_, skipInitializer_written e? hrest⟩
  obtain ⟨k, ks, hkinds, hoperator, -⟩ := p.kinds_eq_cons
  have hhead : (p.kinds ++ (initializer e? ++ rest)).head? ≠ some (.operator "...") := by
    simpa [hkinds] using hoperator "..."
  rw [kinds, List.append_assoc, elementNames, if_neg hhead, h n _ (by omega), names]

/-- The rest of an array is read if its pattern is. -/
theorem isRead_rest {p : BindingPattern} (h : p.IsRead) : (rest p).IsRead := by
  intro n tail hn htail
  rw [kinds, List.length_cons] at hn
  refine ⟨tail, ?_, skipInitializer_written none htail⟩
  rw [kinds, List.cons_append, elementNames, if_pos (by rw [List.head?_cons]), List.drop_one,
    List.tail_cons, h n tail (by omega), names]

end BindingElement

/-! ## Reading the members of a pattern -/

/-- The properties are read off their tokens, up to the brace that closes them. -/
def BindingProperty.AreRead (trailing : Bool) (ps : List BindingProperty) : Prop :=
  ∀ n rest, 3 * (list trailing ps).length + 1 ≤ n →
    propertiesNames n (list trailing ps ++ .rightBrace :: rest) = (namesOf ps, rest)

/-- The elements are read off their tokens, up to the bracket that closes them. -/
def BindingElement.AreRead (trailing : Bool) (es : List BindingElement) : Prop :=
  ∀ n rest, 3 * (list trailing es).length + 1 ≤ n →
    elementsNames n (list trailing es ++ .rightBracket :: rest) = (namesOf es, rest)

namespace BindingProperty

variable {trailing : Bool} {p : BindingProperty} {ps : List BindingProperty}

/-- A property has a first token, which is no closing brace. -/
theorem kinds_eq_cons (p : BindingProperty) : ∃ k ks, p.kinds = k :: ks ∧ k ≠ .rightBrace := by
  cases p with
  | keyed key p e? => cases key <;> simp [kinds, PropertyKey.kinds]
  | _ => simp [kinds]

/-- An object pattern without properties is read. -/
theorem areRead_nil : AreRead trailing [] := by
  intro n rest hn
  obtain ⟨n, rfl⟩ : ∃ m, n = m + 1 := ⟨n - 1, by omega⟩
  rw [list, List.nil_append, propertiesNames, namesOf]

/-- Properties are read if the first of them is and the others are. -/
theorem areRead_cons (hp : p.IsRead) (hps : AreRead trailing ps) : AreRead trailing (p :: ps) := by
  intro n rest hn
  simp only [list, List.length_append] at hn
  obtain ⟨n, rfl⟩ : ∃ m, n = m + 1 := ⟨n - 1, by omega⟩
  obtain ⟨k, ks, hkinds, hk⟩ := p.kinds_eq_cons
  have hread : membersNames (propertyNames n) (propertiesNames n)
      (p.kinds ++ (separator trailing ps.isEmpty ++ (list trailing ps ++ .rightBrace :: rest))) =
        (p.names ++ namesOf ps, rest) := by
    refine membersNames_written (fun behind => hp n behind (by omega)) rfl ?_ fun hcomma => ?_
    · cases ps <;> simp [list, namesOf]
    · rw [hcomma, List.length_singleton] at hn
      exact hps n rest (by omega)
  rw [hkinds] at hread
  rw [list, namesOf, hkinds, List.append_assoc, List.append_assoc, List.cons_append,
    propertiesNames_cons hk, ← List.cons_append, hread]

end BindingProperty

namespace BindingElement

variable {trailing : Bool} {e : BindingElement} {es : List BindingElement}

/-- An array pattern without elements is read. -/
theorem areRead_nil : AreRead trailing [] := by
  intro n rest hn
  obtain ⟨n, rfl⟩ : ∃ m, n = m + 1 := ⟨n - 1, by omega⟩
  rw [list, List.nil_append, elementsNames, namesOf]

/-- A hole is passed with its comma. -/
theorem areRead_hole (hes : AreRead trailing es) : AreRead trailing (hole :: es) := by
  intro n rest hn
  simp only [list, kinds, List.nil_append, List.length_append] at hn
  obtain ⟨n, rfl⟩ : ∃ m, n = m + 1 := ⟨n - 1, by omega⟩
  rw [list, kinds, List.nil_append, namesOf, names, List.nil_append, List.append_assoc]
  by_cases hend : (es.isEmpty && !trailing) = true
  · obtain rfl : es = [] := List.isEmpty_iff.1 (by grind)
    rw [separator, if_pos hend, list, List.nil_append, List.nil_append, elementsNames, namesOf]
  · have hcomma : separator trailing es.isEmpty = [.comma] := if_neg hend
    rw [hcomma, List.length_singleton] at hn
    rw [hcomma, List.singleton_append, elementsNames]
    exact hes n rest (by omega)

/-- Elements are read if the first of them is and the others are. -/
theorem areRead_cons {k : Kind} {ks : List Kind} (hkinds : e.kinds = k :: ks)
    (hk : k ≠ .rightBracket) (hcomma : k ≠ .comma) (he : e.IsRead) (hes : AreRead trailing es) :
    AreRead trailing (e :: es) := by
  intro n rest hn
  simp only [list, List.length_append] at hn
  obtain ⟨n, rfl⟩ : ∃ m, n = m + 1 := ⟨n - 1, by omega⟩
  have hread : membersNames (elementNames n) (elementsNames n)
      (e.kinds ++ (separator trailing es.isEmpty ++ (list trailing es ++ .rightBracket :: rest))) =
        (e.names ++ namesOf es, rest) := by
    refine membersNames_written (fun behind => he n behind (by omega)) rfl ?_ fun hcomma => ?_
    · cases es <;> simp [list, namesOf]
    · rw [hcomma, List.length_singleton] at hn
      exact hes n rest (by omega)
  rw [hkinds] at hread
  rw [list, namesOf, hkinds, List.append_assoc, List.append_assoc, List.cons_append,
    elementsNames_cons hk hcomma, ← List.cons_append, hread]

/-- Elements are read if the first of them has a pattern that is and the others are. -/
theorem areRead_item {p : BindingPattern} (hp : p.IsRead) (e? : Option Expression)
    (hes : AreRead trailing es) : AreRead trailing (item p e? :: es) := by
  obtain ⟨k, ks, hkinds, -, hcomma, hclose⟩ := p.kinds_eq_cons
  have hk : k ≠ .rightBracket := by
    rintro rfl
    exact absurd hclose (by decide)
  exact areRead_cons (by rw [kinds, hkinds, List.cons_append]) hk hcomma (isRead_item hp e?) hes

/-- Elements are read if the first of them is the rest, with a pattern that is, and the others
are. -/
theorem areRead_rest {p : BindingPattern} (hp : p.IsRead) (hes : AreRead trailing es) :
    AreRead trailing (rest p :: es) :=
  areRead_cons (by rw [kinds]) (by simp) (by simp) (isRead_rest hp) hes

end BindingElement

namespace BindingPattern

/-- A name is read as itself. -/
theorem isRead_name (name : String) : (BindingPattern.name name).IsRead := by
  intro n rest hn
  rw [kinds, List.length_singleton] at hn
  obtain ⟨n, rfl⟩ : ∃ m, n = m + 1 := ⟨n - 1, by omega⟩
  rw [kinds, List.singleton_append, patternNames, names]

/-- An object pattern is read if its properties are. -/
theorem isRead_object {ps : List BindingProperty} {trailing : Bool}
    (hps : BindingProperty.AreRead trailing ps) : (object ps trailing).IsRead := by
  intro n rest hn
  simp only [kinds, List.length_append, List.length_cons, List.length_nil] at hn
  obtain ⟨n, rfl⟩ : ∃ m, n = m + 1 := ⟨n - 1, by omega⟩
  rw [kinds, List.cons_append, List.append_assoc, patternNames, names]
  exact hps n rest (by omega)

/-- An array pattern is read if its elements are. -/
theorem isRead_array {es : List BindingElement} {trailing : Bool}
    (hes : BindingElement.AreRead trailing es) : (array es trailing).IsRead := by
  intro n rest hn
  simp only [kinds, List.length_append, List.length_cons, List.length_nil] at hn
  obtain ⟨n, rfl⟩ : ∃ m, n = m + 1 := ⟨n - 1, by omega⟩
  rw [kinds, List.cons_append, List.append_assoc, patternNames, names]
  exact hes n rest (by omega)

end BindingPattern

mutual

/-- Every pattern is read off its tokens. -/
theorem BindingPattern.isRead : ∀ p : BindingPattern, p.IsRead
  | .name name => BindingPattern.isRead_name name
  | .object ps trailing => BindingPattern.isRead_object (BindingProperty.areRead trailing ps)
  | .array es trailing => BindingPattern.isRead_array (BindingElement.areRead trailing es)

/-- Every property is read off its tokens. -/
theorem BindingProperty.isRead : ∀ p : BindingProperty, p.IsRead
  | .shorthand name e? => BindingProperty.isRead_shorthand name e?
  | .keyed key p e? => BindingProperty.isRead_keyed p.isRead key e?
  | .rest p => BindingProperty.isRead_rest p.isRead

/-- All properties are read off their tokens. -/
theorem BindingProperty.areRead (trailing : Bool) :
    ∀ ps : List BindingProperty, BindingProperty.AreRead trailing ps
  | [] => BindingProperty.areRead_nil
  | p :: ps => BindingProperty.areRead_cons p.isRead (BindingProperty.areRead trailing ps)

/-- All elements are read off their tokens. -/
theorem BindingElement.areRead (trailing : Bool) :
    ∀ es : List BindingElement, BindingElement.AreRead trailing es
  | [] => BindingElement.areRead_nil
  | .hole :: es => BindingElement.areRead_hole (BindingElement.areRead trailing es)
  | .item p e? :: es => BindingElement.areRead_item p.isRead e? (BindingElement.areRead trailing es)
  | .rest p :: es => BindingElement.areRead_rest p.isRead (BindingElement.areRead trailing es)

end

/-! ## Declarations -/

/-- A pattern of a declaration, with its initializer where there is one. -/
structure Declarator where
  pattern : BindingPattern
  value? : Option Expression

namespace Declarator

/-- A declarator as it is written. -/
def kinds (d : Declarator) : List Kind :=
  d.pattern.kinds ++ initializer d.value?

/-- Declarators as they are written, with commas between them. -/
def list : List Declarator → List Kind
  | [] => []
  | d :: ds => d.kinds ++ (separator false ds.isEmpty ++ list ds)

/-- A single declarator stands without a comma. -/
theorem list_singleton (d : Declarator) : list [d] = d.kinds := by
  simp [list, separator]

/-- A comma stands between a declarator and the next one. -/
theorem list_cons_cons (d d' : Declarator) (ds : List Declarator) :
    list (d :: d' :: ds) = d.kinds ++ .comma :: list (d' :: ds) := by
  rw [list]
  rfl

/-- The names that declarators bind. -/
def namesOf (ds : List Declarator) : List String :=
  ds.flatMap (·.pattern.names)

end Declarator

/-- The word that a variable declaration starts with. -/
inductive VariableWord where
  | «let»
  | «const»
  | «var»

/-- The keyword that the word is. -/
def VariableWord.keyword : VariableWord → Keyword
  | .«let» => .«let»
  | .«const» => .«const»
  | .«var» => .«var»

/-- No more declarators follow, whatever the initializer that the tokens stand behind. -/
def EndsDeclarators (tail : List Kind) : Prop :=
  ∀ e? more, skipInitializer (initializer e? ++ tail) ≠ .comma :: more

/-- What follows a token that ends an initializer and is no comma is not read. -/
theorem EndsInitializer.endsDeclarators {k : Kind} {ks : List Kind} (h : EndsInitializer (k :: ks))
    (hcomma : k ≠ .comma) : EndsDeclarators (k :: ks) := by
  intro e? more heq
  rw [skipInitializer_written e? h] at heq
  exact hcomma (List.cons_eq_cons.1 heq).1

section Declarators

variable {n : Nat} {names : List String} {ks q rest : List Kind}

/-- Behind a comma the names of another declarator follow. -/
theorem declaratorsNames_of_comma (hread : patternNames n ks = (names, q))
    (hskip : skipInitializer q = .comma :: rest) :
    declaratorsNames (n + 1) ks = names ++ declaratorsNames n rest := by
  simp only [declaratorsNames, hread, hskip]

/-- Without a comma behind it a declarator is the last one. -/
theorem declaratorsNames_of_end (hread : patternNames n ks = (names, q))
    (hskip : ∀ more, skipInitializer q ≠ .comma :: more) :
    declaratorsNames (n + 1) ks = names := by
  simp only [declaratorsNames, hread]

/-- Declarators are read off their tokens where no more of them follow. -/
theorem declaratorsNames_list (hrest : EndsDeclarators rest) (d : Declarator)
    (ds : List Declarator) (hn : 3 * (Declarator.list (d :: ds)).length + 1 ≤ n) :
    declaratorsNames n (Declarator.list (d :: ds) ++ rest) = Declarator.namesOf (d :: ds) := by
  induction ds generalizing d n with
  | nil =>
      rw [Declarator.list_singleton, Declarator.kinds] at hn ⊢
      rw [List.length_append] at hn
      obtain ⟨n, rfl⟩ : ∃ m, n = m + 1 := ⟨n - 1, by omega⟩
      rw [List.append_assoc, declaratorsNames_of_end (d.pattern.isRead n _ (by omega))
        (hrest d.value?), Declarator.namesOf, List.flatMap_singleton]
  | cons d' ds ih =>
      rw [Declarator.list_cons_cons, Declarator.kinds] at hn ⊢
      simp only [List.length_append, List.length_cons] at hn
      obtain ⟨n, rfl⟩ : ∃ m, n = m + 1 := ⟨n - 1, by omega⟩
      have hskip := skipInitializer_written d.value? (.comma (Declarator.list (d' :: ds) ++ rest))
      rw [List.append_assoc, List.append_assoc, List.cons_append,
        declaratorsNames_of_comma (d.pattern.isRead n _ (by omega)) hskip, ih d' (by omega)]
      rfl

end Declarators

/-- A variable declaration as it is written, ended by a semicolon. -/
def variableDeclaration (word : VariableWord) (ds : List Declarator) : List Kind :=
  .keyword word.keyword :: (Declarator.list ds ++ [.semicolon])

/-- The names that a declaration binds are those of the declarators behind its keyword. -/
theorem boundNames_keyword (word : VariableWord) (ks : List Kind) :
    boundNames (.keyword word.keyword :: ks) = declaratorsNames (3 * ks.length + 3) ks := by
  cases word <;> rfl

/-- The names that a written declaration binds are those of its declarators. -/
theorem boundNames_list {rest : List Kind} (hrest : EndsDeclarators rest) (word : VariableWord)
    (d : Declarator) (ds : List Declarator) :
    boundNames (.keyword word.keyword :: (Declarator.list (d :: ds) ++ rest)) =
      Declarator.namesOf (d :: ds) := by
  rw [boundNames_keyword]
  refine declaratorsNames_list hrest d ds ?_
  rw [List.length_append]
  omega

/-- The names of a variable declaration are those of its patterns, in their order. -/
theorem boundNames_variableDeclaration (word : VariableWord) (ds : List Declarator) :
    boundNames (variableDeclaration word ds) = Declarator.namesOf ds := by
  cases ds with
  | nil => cases word <;> rfl
  | cons d ds =>
      have hend : EndsInitializer [.semicolon] := ⟨.semicolon, [], rfl, .inr (.inl rfl)⟩
      exact boundNames_list (hend.endsDeclarators (by simp)) word d ds

/-- A default value that is a call, two arguments within its brackets. -/
def exampleCall : Expression where
  kinds := [.identifier "f", .leftParen, .number "1", .comma, .number "2", .rightParen]
  encloses := by decide
  balanced := by decide

-- `const { [f(1, 2)]: [x, , ...y], z = f(1, 2), } = f(1, 2);`
example : boundNames (variableDeclaration .«const» [⟨.object
      [.keyed (.computed exampleCall)
        (.array [.item (.name "x") none, .hole, .rest (.name "y")] false) none,
        .shorthand "z" (some exampleCall)] true, some exampleCall⟩]) = ["x", "y", "z"] := by
  decide

end ModuleGraph
