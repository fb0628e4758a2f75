import Mathlib.Data.List.Forall2
import Mathlib.Data.List.Nodup
import ModuleGraph.Proofs.Residuals
import ModuleGraph.Proofs.TokenTexts

/-!
# The fragments of a source text

The fragments of a resource are the module declarations of its source text, one for each, in the
order of the source and each before those declared inside of it. The path of a fragment says where
its declaration stands: its segments are names and, for inline modules, ordinals
(`SyntaxTree.lists_ofTree`).
-/

namespace ModuleGraph

open TokenStream
open Token (Kind)

/-! ## Where declarations stand -/

/-- The inline modules of a statement: those in its code, or a declaration without a name. -/
def Statement.inlineModules : Statement → List ModuleDeclaration
  | .module d => if d.name.isNone then [d] else []
  | st => st.modules

/-- The modules that stand directly in a body, with their segments. A module among the statements
has its name, the `i`-th inline module `%i`. -/
inductive Member (body : List Statement) : String → FragmentForm → ModuleDeclaration → Prop where
  | named {name : String} {d : ModuleDeclaration} (h : .module d ∈ body)
      (hname : d.name = some name) : Member body name .importable d
  | inline {i : Nat} {d : ModuleDeclaration}
      (h : (body.flatMap Statement.inlineModules)[i]? = some d) :
      Member body (FragmentPath.inlineSegment i) .inline d

/-- A declaration stands at a path from a body, below `depth` bodies. -/
inductive DeclaredAt : List Statement → FragmentPath → (depth : Nat) → FragmentForm →
    ModuleDeclaration → Prop where
  | here {body : List Statement} {segment : String} {form : FragmentForm} {d : ModuleDeclaration}
      (h : Member body segment form d) : DeclaredAt body [segment] 1 form d
  | inside {body : List Statement} {segment : String} {outer form : FragmentForm}
      {d e : ModuleDeclaration} {path : FragmentPath} {depth : Nat}
      (h : Member body segment outer d) (he : DeclaredAt d.body path depth form e) :
      DeclaredAt body (segment :: path) (depth + 1) form e

/-- The fragment of a declaration at a path of a text. -/
def Fragment.ofDeclaration (text : List Char) (path : FragmentPath) (form : FragmentForm)
    (d : ModuleDeclaration) : Fragment where
  name := d.name
  path := path
  exported := d.exported && form = .importable
  form := form
  body := Body.ofStatements text path d.body
  span := d.span

/-- A fragment stands in front of another one: this one is declared inside, or behind it. -/
def Fragment.Precedes (f g : Fragment) : Prop :=
  ¬ g.path <+: f.path ∧ f.span.start < g.span.start ∧
    if f.path <+: g.path then g.span.stop ≤ f.span.stop else f.span.stop ≤ g.span.start

/-- The fragments of a resource are the declarations of a tree. -/
structure SyntaxTree.Lists (tree : SyntaxTree) (r : Resource) : Prop where
  declarations : ∃ ds : List ModuleDeclaration, (∀ d, d ∈ ds ↔ Declares tree.body d) ∧
    ds.Pairwise (fun d e => d.span.start < e.span.start) ∧
    List.Forall₂ (fun f d => DeclaredAt tree.body f.path f.depth f.form d ∧
      f = .ofDeclaration tree.text f.path f.form d) r.fragments ds
  complete : ∀ path depth form d, DeclaredAt tree.body path depth form d →
    .ofDeclaration tree.text path form d ∈ r.fragments ∧ depth = path.length
  preorder : r.fragments.Pairwise Fragment.Precedes
  paths : (r.fragments.map Fragment.path).Nodup
  enclosing : ∀ before f after, r.fragments = before ++ f :: after → ∀ path, path <+: f.path →
    path ≠ [] → path ≠ f.path → ∃ g ∈ before, g.path = path
  named : ∀ f ∈ r.fragments, f.form = .importable →
    ∃ name, f.name = some name ∧ f.path.getLast? = some name
  found : ∀ path f, r.fragment? path = some f ↔ f ∈ r.fragments ∧ f.path = path
  bodies : r.body? [] = some r.root ∧ ∀ path, path ≠ [] → ∀ b,
    r.body? path = some b ↔ ∃ f ∈ r.fragments, f.path = path ∧ f.body = b

/-! ## Names and segments -/

namespace FragmentPath

/-- The segment of an inline module is a percent sign and its ordinal. -/
theorem toList_inlineSegment (i : Nat) : (inlineSegment i).toList = '%' :: Nat.toDigits 10 i := by
  rw [inlineSegment, Nat.toString_eq_repr, String.toList_append, Nat.toList_repr]
  rfl

/-- The segments of inline modules are told apart by their ordinals. -/
theorem inlineSegment_injective {i j : Nat} (h : inlineSegment i = inlineSegment j) : i = j := by
  have hdigits := congrArg String.toList h
  rw [toList_inlineSegment, toList_inlineSegment] at hdigits
  have hvalue := congrArg (Nat.ofDigitChars 10 · 0) (List.cons.inj hdigits).2
  simpa using hvalue

/-- No name of a module is the segment of an inline module. -/
theorem ne_inlineSegment {name : String} (h : Text.isIdentifierName name.toList = true) (i : Nat) :
    name ≠ inlineSegment i := by
  rintro rfl
  rw [toList_inlineSegment, Text.isIdentifierName] at h
  simp [show Text.isIdentifierStart '%' = false by decide] at h

end FragmentPath

/-- Only an identifier stands for its name. -/
theorem TokenStream.identifier?_eq_some {kind : Kind} {name : String}
    (h : identifier? kind = some name) : kind = .identifier name := by
  cases kind <;> cases h
  rfl

/-- A declared name is an identifier name. -/
theorem DeclaredBehind.isIdentifierName {text : List Char} {d : ModuleDeclaration}
    {s : TokenStream} {name : String} (h : DeclaredBehind d s)
    (hs : s.Follows (ofTokens (Token.ofChars text))) (hname : d.name = some name) :
    Text.isIdentifierName name.toList = true := by
  obtain ⟨start, exported, placement, s₁, s₂, hs₁, -, hread⟩ := h
  cases hread with
  | @declaration _ _ _ _ s₃ _ name? body hmodule =>
      obtain rfl : name? = some name := hname
      have hkind : s₁.advance.kind = .identifier name := by
        refine identifier?_eq_some ?_
        unfold Parser.moduleName at hmodule
        cases hidentifier : identifier? s₁.advance.kind with
        | none =>
            rw [hidentifier] at hmodule
            cases hmodule
        | some name' =>
            rw [hidentifier] at hmodule
            exact (Prod.mk.inj hmodule).1
      have hmem : s₁.advance.current ∈ Token.ofChars text := by
        rw [← toList_ofTokens (ofChars_ne_nil text)]
        exact ((follows_advance s₁).trans (hs₁.trans hs)).subset (List.mem_cons_self ..)
      exact (Token.covers_tokensFrom (List.nil_append text).symm rfl _ hmem).named name hkind

/-! ## The modules of a body in order -/

/-- A module that stands directly in a body. -/
structure Child where
  segment : String
  form : FragmentForm
  declaration : ModuleDeclaration

/-- Inline modules, counted from `ordinal` on. -/
def inlineChildren (ordinal : Nat) : List ModuleDeclaration → List Child
  | [] => []
  | d :: ds => ⟨FragmentPath.inlineSegment ordinal, .inline, d⟩ :: inlineChildren (ordinal + 1) ds

/-- The modules of a statement behind `ordinal` inline modules. -/
def Statement.children (ordinal : Nat) : Statement → List Child
  | .module d =>
    match d.name with
    | some name => [⟨name, .importable, d⟩]
    | none => [⟨FragmentPath.inlineSegment ordinal, .inline, d⟩]
  | st => inlineChildren ordinal st.modules

/-- The module that a statement declares by name. -/
def Statement.namedChild? : Statement → Option Child
  | .module d => d.name.map fun name => ⟨name, .importable, d⟩
  | _ => none

/-- The modules of statements behind `ordinal` inline modules. -/
def childrenFrom (ordinal : Nat) : List Statement → List Child
  | [] => []
  | st :: rest => st.children ordinal ++ childrenFrom (ordinal + st.inlineModules.length) rest

section Children

variable {body : List Statement} {ordinal : Nat}

/-- The inline children are the given declarations, in their order. -/
theorem map_declaration_inlineChildren (ordinal : Nat) (ds : List ModuleDeclaration) :
    (inlineChildren ordinal ds).map Child.declaration = ds := by
  induction ds generalizing ordinal with
  | nil => rfl
  | cons d ds ih => exact congrArg (d :: ·) (ih _)

/-- Inline modules are counted on from one list to the next. -/
theorem inlineChildren_append (ordinal : Nat) (ds es : List ModuleDeclaration) :
    inlineChildren ordinal (ds ++ es) =
      inlineChildren ordinal ds ++ inlineChildren (ordinal + ds.length) es := by
  induction ds generalizing ordinal with
  | nil => rfl
  | cons d ds ih =>
      rw [List.cons_append, inlineChildren, ih, inlineChildren, List.length_cons, Nat.add_assoc,
        Nat.add_comm 1]
      rfl

/-- An inline child has the ordinal of its place in the list. -/
theorem mem_inlineChildren {ds : List ModuleDeclaration} {c : Child} :
    c ∈ inlineChildren ordinal ds ↔
      ∃ i d, ds[i]? = some d ∧ c = ⟨FragmentPath.inlineSegment (ordinal + i), .inline, d⟩ := by
  induction ds generalizing ordinal with
  | nil => simp [inlineChildren]
  | cons d ds ih =>
      rw [inlineChildren, List.mem_cons, ih]
      constructor
      · rintro (rfl | ⟨i, e, he, rfl⟩)
        · exact ⟨0, d, rfl, rfl⟩
        · exact ⟨i + 1, e, he, by rw [Nat.add_right_comm]; rfl⟩
      · rintro ⟨i, e, he, rfl⟩
        cases i with
        | zero =>
            cases he
            exact .inl rfl
        | succ i => exact .inr ⟨i, e, he, by rw [Nat.add_right_comm]; rfl⟩

/-- The children of a body are its modules, in the order of its statements. -/
theorem map_declaration_childrenFrom (ordinal : Nat) (body : List Statement) :
    (childrenFrom ordinal body).map Child.declaration = body.flatMap Statement.modules := by
  induction body generalizing ordinal with
  | nil => rfl
  | cons st body ih =>
      have hst : (st.children ordinal).map Child.declaration = st.modules := by
        cases st with
        | module d =>
            rw [Statement.children]
            split <;> rfl
        | _ => exact map_declaration_inlineChildren ..
      rw [childrenFrom, List.map_append, hst, ih, List.flatMap_cons]

/-- Inline children are inline modules. -/
theorem form_of_mem_inlineChildren {ds : List ModuleDeclaration} :
    ∀ c ∈ inlineChildren ordinal ds, c.form = .inline := by
  intro c hc
  obtain ⟨i, d, -, rfl⟩ := mem_inlineChildren.1 hc
  rfl

/-- The inline ones among the modules of a statement are its inline modules. -/
theorem filter_inline_children (ordinal : Nat) (st : Statement) :
    (st.children ordinal).filter (·.form = .inline) = inlineChildren ordinal st.inlineModules := by
  cases st with
  | module d =>
      rw [Statement.children, Statement.inlineModules]
      cases d.name <;> rfl
  | _ =>
      refine List.filter_eq_self.2 fun c hc => ?_
      rw [form_of_mem_inlineChildren c hc]
      rfl

/-- The inline modules of a body, counted through its statements. -/
theorem filter_inline_childrenFrom (ordinal : Nat) (body : List Statement) :
    (childrenFrom ordinal body).filter (·.form = .inline) =
      inlineChildren ordinal (body.flatMap Statement.inlineModules) := by
  induction body generalizing ordinal with
  | nil => rfl
  | cons st body ih =>
      rw [childrenFrom, List.filter_append, filter_inline_children, ih, List.flatMap_cons,
        inlineChildren_append]

/-- The importable one among the modules of a statement is the one that it declares by name. -/
theorem filter_named_children (ordinal : Nat) (st : Statement) :
    (st.children ordinal).filter (·.form = .importable) = st.namedChild?.toList := by
  cases st with
  | module d =>
      rw [Statement.children, Statement.namedChild?]
      cases d.name <;> rfl
  | _ =>
      refine List.filter_eq_nil_iff.2 fun c hc => ?_
      rw [form_of_mem_inlineChildren c hc]
      decide

/-- The importable ones among the modules of a body are those that are declared by name. -/
theorem filter_named_childrenFrom (ordinal : Nat) (body : List Statement) :
    (childrenFrom ordinal body).filter (·.form = .importable) =
      body.filterMap Statement.namedChild? := by
  induction body generalizing ordinal with
  | nil => rfl
  | cons st body ih =>
      rw [childrenFrom, List.filter_append, filter_named_children, ih, List.filterMap_cons]
      cases st.namedChild? <;> rfl

/-- The children of a body are the modules that stand directly in it. -/
theorem mem_childrenFrom {c : Child} :
    c ∈ childrenFrom 0 body ↔ Member body c.segment c.form c.declaration := by
  constructor
  · intro hc
    -- the two forms are numbered apart, so that each is looked for among its own
    cases hform : c.form with
    | importable =>
        have hmem : c ∈ (childrenFrom 0 body).filter (·.form = .importable) :=
          List.mem_filter.2 ⟨hc, decide_eq_true hform⟩
        rw [filter_named_childrenFrom] at hmem
        obtain ⟨st, hst, hchild⟩ := List.mem_filterMap.1 hmem
        cases st with
        | module d =>
            obtain ⟨name, hname, rfl⟩ := Option.map_eq_some_iff.1 hchild
            exact .named hst hname
        | _ => cases hchild
    | inline =>
        have hmem : c ∈ (childrenFrom 0 body).filter (·.form = .inline) :=
          List.mem_filter.2 ⟨hc, decide_eq_true hform⟩
        rw [filter_inline_childrenFrom, mem_inlineChildren] at hmem
        obtain ⟨i, d, hd, rfl⟩ := hmem
        rw [Nat.zero_add]
        exact .inline hd
  · obtain ⟨segment, form, d⟩ := c
    intro h
    cases h with
    | named hst hname =>
        have hmem : (⟨segment, .importable, d⟩ : Child) ∈ body.filterMap Statement.namedChild? :=
          List.mem_filterMap.2 ⟨_, hst, Option.map_eq_some_iff.2 ⟨_, hname, rfl⟩⟩
        rw [← filter_named_childrenFrom 0] at hmem
        exact (List.mem_filter.1 hmem).1
    | @inline i _ hd =>
        have hmem : (⟨FragmentPath.inlineSegment (0 + i), .inline, d⟩ : Child) ∈
            inlineChildren 0 (body.flatMap Statement.inlineModules) :=
          mem_inlineChildren.2 ⟨i, d, hd, rfl⟩
        rw [← filter_inline_childrenFrom, Nat.zero_add] at hmem
        exact (List.mem_filter.1 hmem).1

/-- Inline children have different segments. -/
theorem pairwise_inlineChildren (ordinal : Nat) (ds : List ModuleDeclaration) :
    (inlineChildren ordinal ds).Pairwise fun a b => a.segment ≠ b.segment := by
  induction ds generalizing ordinal with
  | nil => exact .nil
  | cons d ds ih =>
      refine List.pairwise_cons.2 ⟨fun c hc heq => ?_, ih _⟩
      obtain ⟨i, e, -, rfl⟩ := mem_inlineChildren.1 hc
      have := FragmentPath.inlineSegment_injective heq
      omega

/-- The modules of a body have different segments if no two have one name, and each name is an
identifier name. -/
theorem pairwise_segment (hnodup : (body.filterMap Statement.fragmentName?).Nodup)
    (hnames : ∀ d ∈ body.flatMap Statement.modules, ∀ name, d.name = some name →
      Text.isIdentifierName name.toList = true) :
    (childrenFrom 0 body).Pairwise fun a b => a.segment ≠ b.segment := by
  have hnamed : (body.filterMap Statement.namedChild?).Pairwise
      fun a b => a.segment ≠ b.segment := by
    refine List.pairwise_map.1 (?_ : (_ : List String).Nodup)
    rw [List.map_filterMap]
    refine (congrArg List.Nodup (congrArg (List.filterMap · body) ?_)).mp hnodup
    funext st
    cases st with
    | module d => simp [Statement.namedChild?, Statement.fragmentName?, Function.comp_def]
    | _ => rfl
  have hinline := pairwise_inlineChildren 0 (body.flatMap Statement.inlineModules)
  rw [← filter_named_childrenFrom 0, List.pairwise_filter] at hnamed
  rw [← filter_inline_childrenFrom, List.pairwise_filter] at hinline
  -- a name is an identifier, which the segment of an inline module never is
  have hname : ∀ {a b : Child}, a ∈ childrenFrom 0 body → b ∈ childrenFrom 0 body →
      a.form = .importable → b.form = .inline → a.segment ≠ b.segment := by
    intro a b ha hb haform hbform
    have ha := mem_childrenFrom.1 ha
    have hb := mem_childrenFrom.1 hb
    rw [haform] at ha
    rw [hbform] at hb
    obtain ⟨segment, _, d⟩ := a
    obtain ⟨segment', _, d'⟩ := b
    cases ha with
    | named hst hname =>
        have hd : d ∈ body.flatMap Statement.modules :=
          List.mem_flatMap.2 ⟨_, hst, List.mem_singleton_self d⟩
        cases hb with
        | inline _ => exact FragmentPath.ne_inlineSegment (hnames d hd _ hname) _
  refine (hnamed.and hinline).imp_of_mem fun {a b} ha hb hab => ?_
  cases haform : a.form <;> cases hbform : b.form
  · exact hab.1 (decide_eq_true haform) (decide_eq_true hbform)
  · exact hname ha hb haform hbform
  · exact (hname hb ha hbform haform).symm
  · exact hab.2 (decide_eq_true haform) (decide_eq_true hbform)

end Children

/-! ## The traversal -/

/-- The fragments listed for the modules of a body at a path. -/
inductive Traversal (text : List Char) : FragmentPath → List Child → List Fragment → Prop where
  | nil {path : FragmentPath} : Traversal text path [] []
  | cons {path : FragmentPath} {child : Child} {children : List Child}
      {inner more : List Fragment}
      (hnames : (child.declaration.body.filterMap Statement.fragmentName?).Nodup)
      (hinner : Traversal text (path.child child.segment)
        (childrenFrom 0 child.declaration.body) inner)
      (hmore : Traversal text path children more) :
      Traversal text path (child :: children)
        (.ofDeclaration text (path.child child.segment) child.form child.declaration ::
          inner ++ more)

/-- The modules of two lists are listed one list after the other. -/
theorem Traversal.append {text : List Char} {path : FragmentPath} {children children' : List Child}
    {fragments fragments' : List Fragment} (h : Traversal text path children fragments)
    (h' : Traversal text path children' fragments') :
    Traversal text path (children ++ children') (fragments ++ fragments') := by
  induction h with
  | nil => exact h'
  | cons hnames hinner _ _ ih =>
      rw [List.cons_append, List.append_assoc]
      exact .cons hnames hinner (ih h')

/-- Where no name is repeated, all names are different and new. -/
theorem nodup_of_firstRepeated? {seen names : List String} (h : firstRepeated? seen names = none) :
    names.Nodup ∧ ∀ name ∈ names, name ∉ seen := by
  induction names generalizing seen with
  | nil => simp
  | cons name names ih =>
      rw [firstRepeated?] at h
      split at h
      · cases h
      · next hseen =>
          obtain ⟨hnodup, hnew⟩ := ih h
          have hname : name ∉ names := fun hname => hnew name hname (List.mem_cons_self ..)
          refine ⟨List.nodup_cons.2 ⟨hname, hnodup⟩, List.forall_mem_cons.2 ⟨hseen, ?_⟩⟩
          exact fun name' h' hin => hnew name' h' (List.mem_cons_of_mem _ hin)

/-- Module names that pass the check are given once. -/
theorem nodup_of_checkFragmentNames {path : FragmentPath} {statements : List Statement} {u : Unit}
    (h : checkFragmentNames path statements = .ok u) :
    (statements.filterMap Statement.fragmentName?).Nodup := by
  unfold checkFragmentNames at h
  split at h
  · cases h
  · next hnames => exact (nodup_of_firstRepeated? hnames).1

mutual

/-- The fragments of statements are listed as their modules stand. -/
theorem traversal_statementsFragments {text : List Char} {path : FragmentPath} {ordinal : Nat} :
    ∀ {statements : List Statement} {fragments : List Fragment},
      statementsFragments text path ordinal statements = .ok fragments →
      Traversal text path (childrenFrom ordinal statements) fragments
  | [], fragments, h => by
      rw [statementsFragments] at h
      cases h
      exact .nil
  | .module d :: rest, fragments, h => by
      rw [statementsFragments] at h
      -- a named module is the next child, an inline one is counted, too
      cases hname : d.name with
      | some name =>
          simp only [hname] at h
          obtain ⟨here, hhere, h⟩ := Except.bind_eq_ok h
          obtain ⟨more, hmore, h⟩ := Except.bind_eq_ok h
          cases h
          have hmore := traversal_statementsFragments hmore
          obtain ⟨inner, rfl, hnames, hinner⟩ := exists_traversal_declarationFragments hhere
          simp only [childrenFrom, Statement.children, Statement.inlineModules, hname]
          exact .cons hnames hinner hmore
      | none =>
          simp only [hname] at h
          obtain ⟨here, hhere, h⟩ := Except.bind_eq_ok h
          obtain ⟨more, hmore, h⟩ := Except.bind_eq_ok h
          cases h
          have hmore := traversal_statementsFragments hmore
          obtain ⟨inner, rfl, hnames, hinner⟩ := exists_traversal_declarationFragments hhere
          simp only [childrenFrom, Statement.children, Statement.inlineModules, hname]
          exact .cons hnames hinner hmore
  | .code c :: rest, fragments, h
  | .exportDeclaration _ c _ :: rest, fragments, h
  | .exportDefault _ c _ :: rest, fragments, h => by
      rw [statementsFragments] at h
      obtain ⟨here, hhere, h⟩ := Except.bind_eq_ok h
      obtain ⟨more, hmore, h⟩ := Except.bind_eq_ok h
      cases h
      exact (traversal_codeFragments hhere).append (traversal_statementsFragments hmore)
  | .importFrom .. :: rest, fragments, h
  | .exportNames .. :: rest, fragments, h
  | .exportAll .. :: rest, fragments, h => by
      rw [statementsFragments] at h
      -- the call stands apart from the goal, so that it is seen to go on with `rest`
      have htraversal := traversal_statementsFragments h
      exact htraversal

/-- The fragments of code are listed as its modules stand. -/
theorem traversal_codeFragments {text : List Char} {path : FragmentPath} {ordinal : Nat} :
    ∀ {code : Code} {fragments : List Fragment},
      codeFragments text path ordinal code = .ok fragments →
      Traversal text path (inlineChildren ordinal code.inlineModules) fragments
  | .mk _ declarations, fragments, h => by
      rw [codeFragments] at h
      exact traversal_inlineFragments h

/-- The fragments of inline modules are listed as these stand. -/
theorem traversal_inlineFragments {text : List Char} {path : FragmentPath} {ordinal : Nat} :
    ∀ {declarations : List ModuleDeclaration} {fragments : List Fragment},
      inlineFragments text path ordinal declarations = .ok fragments →
      Traversal text path (inlineChildren ordinal declarations) fragments
  | [], fragments, h => by
      rw [inlineFragments] at h
      cases h
      exact .nil
  | d :: ds, fragments, h => by
      rw [inlineFragments] at h
      obtain ⟨here, hhere, h⟩ := Except.bind_eq_ok h
      obtain ⟨more, hmore, h⟩ := Except.bind_eq_ok h
      cases h
      have hmore := traversal_inlineFragments hmore
      obtain ⟨inner, rfl, hnames, hinner⟩ := exists_traversal_declarationFragments hhere
      exact .cons hnames hinner hmore

/-- The fragments of a declaration are its own and, behind it, those of its statements. -/
theorem exists_traversal_declarationFragments {text : List Char} {path : FragmentPath}
    {form : FragmentForm} : ∀ {d : ModuleDeclaration} {fragments : List Fragment},
      declarationFragments text path form d = .ok fragments →
      ∃ inner, fragments = .ofDeclaration text path form d :: inner ∧
        (d.body.filterMap Statement.fragmentName?).Nodup ∧
        Traversal text path (childrenFrom 0 d.body) inner
  | .mk name exported _ statements span _, fragments, h => by
      rw [declarationFragments] at h
      obtain ⟨u, hnames, h⟩ := Except.bind_eq_ok h
      obtain ⟨inner, hinner, h⟩ := Except.bind_eq_ok h
      obtain ⟨-, -, h⟩ := Except.bind_eq_ok h
      cases h
      exact ⟨inner, rfl, nodup_of_checkFragmentNames hnames, traversal_statementsFragments hinner⟩

end

/-! ## The modules of a body in their places -/

section Places

variable {tree : SyntaxTree} {span : Span} {body : List Statement} {text : List Char}

/-- The modules of a body stand apart inside its span, under different segments. -/
structure ChildrenApart (tree : SyntaxTree) (span : Span) (children : List Child) : Prop where
  apart : children.Pairwise fun a b => a.declaration.span.stop ≤ b.declaration.span.start
  segments : children.Pairwise fun a b => a.segment ≠ b.segment
  inside : ∀ c ∈ children, c.declaration.span.start < c.declaration.span.stop ∧
    c.declaration.span.within span = true
  declared : ∀ c ∈ children, Declares tree.body c.declaration

/-- The modules of a statement stand one behind the other inside of it. -/
theorem modules_of_laidOut (h : tree.LaidOut span body) {st : Statement} (hst : st ∈ body) :
    st.modules.Pairwise (fun d e => d.span.stop ≤ e.span.start) ∧
      ∀ d ∈ st.modules, d.span.start < d.span.stop ∧ d.span.within st.span = true := by
  have hcode : ∀ c, st.code? = some c →
      c.inlineModules.Pairwise (fun d e => d.span.stop ≤ e.span.start) ∧
        ∀ d ∈ c.inlineModules, d.span.start < d.span.stop ∧ d.span.within st.span = true := by
    intro c hc
    obtain ⟨hwithin, hapart, hinside⟩ := h.code st hst c hc
    exact ⟨hapart, fun d hd => ⟨(hinside d hd).1, Span.within_trans (hinside d hd).2 hwithin⟩⟩
  cases st with
  | module d =>
      refine ⟨List.pairwise_singleton .., fun e he => ?_⟩
      obtain rfl := List.mem_singleton.1 he
      exact ⟨(h.inside _ hst).1, decide_eq_true ⟨Nat.le_refl _, Nat.le_refl _⟩⟩
  | code c => exact hcode c rfl
  | exportDeclaration _ c _ => exact hcode c rfl
  | exportDefault _ c _ => exact hcode c rfl
  | _ => exact ⟨.nil, nofun⟩

/-- The modules of a body that is laid out stand one behind the other. -/
theorem pairwise_modules (h : tree.LaidOut span body) :
    (body.flatMap Statement.modules).Pairwise fun d e => d.span.stop ≤ e.span.start := by
  refine List.pairwise_flatMap.2 ⟨fun st hst => (modules_of_laidOut h hst).1, ?_⟩
  refine h.ordered.imp_of_mem fun {a b} ha hb hab d hd e he => ?_
  have hd := ((modules_of_laidOut h ha).2 d hd).2
  have he := ((modules_of_laidOut h hb).2 e he).2
  rw [Span.within, decide_eq_true_eq] at hd he
  omega

/-- The modules in a body of a tree are declared in the tree. -/
theorem SyntaxTree.BodyAt.declares (h : tree.BodyAt span body) {d : ModuleDeclaration}
    (hd : d ∈ body.flatMap Statement.modules) : Declares tree.body d := by
  cases h with
  | whole => exact .here hd
  | declared hbody => exact .inside hbody hd

/-- All declarations of a text have identifier names, if they have names. -/
theorem isIdentifierName_of_declares (h : SyntaxTree.parse text = .ok tree) {d : ModuleDeclaration}
    (hd : Declares tree.body d) {name : String} (hname : d.name = some name) :
    Text.isIdentifierName name.toList = true := by
  obtain ⟨rfl, s', hend, hread⟩ := SyntaxTree.parse_eq_ok.1 h
  have hbehind := hread.declaredBehind (inOrder_ofChars tree.text) hd
  exact hbehind.isIdentifierName (.refl _) hname

/-- The modules in a body of a parsed text stand apart. -/
theorem childrenApart_of_bodyAt (h : SyntaxTree.parse text = .ok tree)
    (hbody : tree.BodyAt span body) (hnames : (body.filterMap Statement.fragmentName?).Nodup) :
    ChildrenApart tree span (childrenFrom 0 body) := by
  obtain ⟨s, s', htokens⟩ := hbody.exists_tokens h
  have hlaid := SyntaxTree.LaidOut.of_tokens htokens
  have hmem : ∀ c ∈ childrenFrom 0 body, c.declaration ∈ body.flatMap Statement.modules := by
    rw [← map_declaration_childrenFrom 0]
    exact fun c hc => List.mem_map_of_mem hc
  have hapart := pairwise_modules hlaid
  rw [← map_declaration_childrenFrom 0, List.pairwise_map] at hapart
  refine ⟨hapart, pairwise_segment hnames fun d hd name hname => ?_, fun c hc => ?_,
    fun c hc => hbody.declares (hmem c hc)⟩
  · exact isIdentifierName_of_declares h (hbody.declares hd) hname
  · obtain ⟨st, hst, hd⟩ := List.mem_flatMap.1 (hmem c hc)
    obtain ⟨hlt, hwithin⟩ := (modules_of_laidOut hlaid hst).2 _ hd
    exact ⟨hlt, Span.within_trans hwithin (hlaid.inside st hst).2⟩

/-- The body of a declaration is inside of it, behind its start. -/
theorem bodySpan_inside (h : SyntaxTree.parse text = .ok tree) {d : ModuleDeclaration}
    (hd : Declares tree.body d) :
    d.span.start < d.bodySpan.start ∧ d.bodySpan.stop ≤ d.span.stop := by
  obtain ⟨rfl, s', hend, hread⟩ := SyntaxTree.parse_eq_ok.1 h
  have hs := inOrder_ofChars tree.text
  obtain ⟨opening, closing, hdeclaration⟩ := hread.exists_read hs hd
  have hstart := hdeclaration.start
  have hstop := hdeclaration.stop
  have hopening := (hs.of_follows hdeclaration.follows).current_lt
    (by simp [hdeclaration.opening_kind])
  have hclosing := hs.of_follows (hdeclaration.reads.follows.of_advance.trans hdeclaration.follows)
  rw [hdeclaration.span]
  exact ⟨Nat.lt_of_le_of_lt hstart hopening, hstop ▸ hclosing.current_le⟩

/-- Modules that stand apart do so without the first of them. -/
theorem ChildrenApart.tail {c : Child} {children : List Child}
    (h : ChildrenApart tree span (c :: children)) : ChildrenApart tree span children where
  apart := (List.pairwise_cons.1 h.apart).2
  segments := (List.pairwise_cons.1 h.segments).2
  inside c' hc' := h.inside c' (List.mem_cons_of_mem _ hc')
  declared c' hc' := h.declared c' (List.mem_cons_of_mem _ hc')

/-- The modules inside of one that stands in its place. -/
theorem ChildrenApart.inner {c : Child} {children : List Child}
    (h : SyntaxTree.parse text = .ok tree) (hc : ChildrenApart tree span (c :: children))
    (hnames : (c.declaration.body.filterMap Statement.fragmentName?).Nodup) :
    ChildrenApart tree c.declaration.bodySpan (childrenFrom 0 c.declaration.body) :=
  childrenApart_of_bodyAt h (.declared (hc.declared c (List.mem_cons_self ..))) hnames

end Places

/-! ## The order of fragments -/

section Order

variable {tree : SyntaxTree} {text : List Char} {path : FragmentPath} {children : List Child}
  {fragments : List Fragment} {span : Span}

/-- What stands under a segment of a path stands under the path. -/
theorem prefix_of_child {segment : String} {path' : FragmentPath}
    (h : path.child segment <+: path') : path <+: path' :=
  (List.prefix_append ..).trans h

/-- A fragment is that of a module in a body at a path, or of one declared inside of this module. -/
structure Fragment.Within (f : Fragment) (path : FragmentPath) (c : Child) : Prop where
  path : path.child c.segment <+: f.path
  place : c.declaration.span.start ≤ f.span.start ∧ f.span.start < f.span.stop ∧
    f.span.stop ≤ c.declaration.span.stop

/-- A fragment within a module that stands in another one is within the outer module. -/
theorem Fragment.Within.outer {f : Fragment} {c c' : Child} {inner : List Child}
    (h : SyntaxTree.parse text = .ok tree) (hd : Declares tree.body c.declaration)
    (hinner : ChildrenApart tree c.declaration.bodySpan inner) (hc' : c' ∈ inner)
    (hf : f.Within (path.child c.segment) c') : f.Within path c := by
  have hbody := bodySpan_inside h hd
  have hplace := (hinner.inside c' hc').2
  rw [Span.within, decide_eq_true_eq] at hplace
  obtain ⟨hstart, hlt, hstop⟩ := hf.place
  exact ⟨prefix_of_child hf.path, by omega, hlt, by omega⟩

/-- Each fragment that is listed is within one of the modules. -/
theorem Traversal.exists_child (h : SyntaxTree.parse text = .ok tree)
    (htraversal : Traversal tree.text path children fragments)
    (hc : ChildrenApart tree span children) :
    ∀ f ∈ fragments, ∃ c ∈ children, f.Within path c := by
  induction htraversal generalizing span with
  | nil => simp
  | @cons path c children inner more hnames hinner hmore ihInner ihMore =>
      have hlt := (hc.inside c (List.mem_cons_self ..)).1
      rw [List.cons_append]
      refine List.forall_mem_cons.2 ⟨⟨c, List.mem_cons_self .., List.prefix_rfl, Nat.le_refl _, hlt,
        Nat.le_refl _⟩, fun f hf => ?_⟩
      obtain hf | hf := List.mem_append.1 hf
      · obtain ⟨c', hc', hf⟩ := ihInner (hc.inner h hnames) f hf
        exact ⟨c, List.mem_cons_self ..,
          hf.outer h (hc.declared c (List.mem_cons_self ..)) (hc.inner h hnames) hc'⟩
      · obtain ⟨c', hc', hf⟩ := ihMore hc.tail f hf
        exact ⟨c', List.mem_cons_of_mem _ hc', hf⟩

/-- A fragment stands in front of those that are declared inside of it. -/
theorem Fragment.Precedes.inside {f g : Fragment} {segment : String}
    (hpath : f.path.child segment <+: g.path) (hstart : f.span.start < g.span.start)
    (hstop : g.span.stop ≤ f.span.stop) : f.Precedes g := by
  refine ⟨fun hprefix => ?_, hstart, by rwa [if_pos (prefix_of_child hpath)]⟩
  have := (hpath.trans hprefix).length_le
  rw [FragmentPath.child, List.length_append, List.length_singleton] at this
  omega

/-- A fragment stands in front of those behind it, under other segments. -/
theorem Fragment.Precedes.behind {f g : Fragment} {segment segment' : String}
    (hsegment : segment ≠ segment') (hf : path.child segment <+: f.path)
    (hg : path.child segment' <+: g.path) (hstart : f.span.start < g.span.start)
    (hstop : f.span.stop ≤ g.span.start) : f.Precedes g := by
  -- two paths that part are not below each other
  have hpart : ∀ {path' : FragmentPath}, path.child segment <+: path' →
      ¬ path.child segment' <+: path' := by
    intro path' h h'
    have heq := (List.prefix_of_prefix_length_le h h' (by simp [FragmentPath.child])).eq_of_length
      (by simp [FragmentPath.child])
    exact hsegment (by simpa [FragmentPath.child] using heq)
  refine ⟨fun hprefix => ?_, hstart, ?_⟩
  · exact hpart hf (hg.trans hprefix)
  · rwa [if_neg fun hprefix => hpart (hf.trans hprefix) hg]

/-- Fragments are listed in pre-order. -/
theorem Traversal.pairwise_precedes (h : SyntaxTree.parse text = .ok tree)
    (htraversal : Traversal tree.text path children fragments)
    (hc : ChildrenApart tree span children) :
    fragments.Pairwise Fragment.Precedes := by
  induction htraversal generalizing span with
  | nil => exact .nil
  | @cons path c children inner more hnames hinner hmore ihInner ihMore =>
      have hd := hc.declared c (List.mem_cons_self ..)
      have hbehind : ∀ f : Fragment, f.Within path c → ∀ g ∈ more, f.Precedes g := by
        intro f hf g hg
        obtain ⟨c', hc', hwithin⟩ := hmore.exists_child h hc.tail g hg
        have hapart := (List.pairwise_cons.1 hc.apart).1 c' hc'
        obtain ⟨-, hlt, hstop⟩ := hf.place
        have hstart := hwithin.place.1
        exact .behind ((List.pairwise_cons.1 hc.segments).1 c' hc') hf.path hwithin.path
          (by omega) (by omega)
      have hself : (Fragment.ofDeclaration tree.text (path.child c.segment) c.form
          c.declaration).Within path c :=
        ⟨List.prefix_rfl, Nat.le_refl _, (hc.inside c (List.mem_cons_self ..)).1, Nat.le_refl _⟩
      rw [List.cons_append]
      refine List.pairwise_cons.2 ⟨fun g hg => ?_, List.pairwise_append.2
        ⟨ihInner (hc.inner h hnames), ihMore hc.tail, fun f hf => hbehind f ?_⟩⟩
      · obtain hg | hg := List.mem_append.1 hg
        · obtain ⟨c', hc', hwithin⟩ := hinner.exists_child h (hc.inner h hnames) g hg
          have hbody := bodySpan_inside h hd
          have hplace := ((hc.inner h hnames).inside c' hc').2
          rw [Span.within, decide_eq_true_eq] at hplace
          obtain ⟨hstart, -, hstop⟩ := hwithin.place
          refine .inside hwithin.path ?_ ?_
          · exact Nat.lt_of_lt_of_le hbody.1 (Nat.le_trans hplace.1 hstart)
          · exact Nat.le_trans hstop (Nat.le_trans hplace.2 hbody.2)
        · exact hbehind _ hself g hg
      · obtain ⟨c', hc', hwithin⟩ := hinner.exists_child h (hc.inner h hnames) f hf
        exact hwithin.outer h hd (hc.inner h hnames) hc'

end Order

/-! ## The declarations of fragments -/

/-- A declaration is a module of a body, or it stands inside of this module. -/
def Child.Leads (c : Child) (path : FragmentPath) (depth : Nat) (form : FragmentForm)
    (e : ModuleDeclaration) : Prop :=
  (path = [c.segment] ∧ depth = 1 ∧ form = c.form ∧ e = c.declaration) ∨
    ∃ path' depth', path = c.segment :: path' ∧ depth = depth' + 1 ∧
      DeclaredAt c.declaration.body path' depth' form e

section Declarations

variable {text : List Char} {body : List Statement} {path inside : FragmentPath} {depth : Nat}
  {form : FragmentForm} {e : ModuleDeclaration} {children : List Child}
  {fragments : List Fragment}

/-- A declaration at a path is a module of the body or stands in one of them. -/
theorem declaredAt_iff :
    DeclaredAt body path depth form e ↔ ∃ c ∈ childrenFrom 0 body, c.Leads path depth form e := by
  constructor
  · intro h
    cases h with
    | here h => exact ⟨⟨_, form, e⟩, mem_childrenFrom.2 h, .inl ⟨rfl, rfl, rfl, rfl⟩⟩
    | inside h he => exact ⟨⟨_, _, _⟩, mem_childrenFrom.2 h, .inr ⟨_, _, rfl, rfl, he⟩⟩
  · rintro ⟨c, hc, ⟨rfl, rfl, rfl, rfl⟩ | ⟨path', depth', rfl, rfl, he⟩⟩
    · exact .here (mem_childrenFrom.1 hc)
    · exact .inside (mem_childrenFrom.1 hc) he

/-- A declaration in a body is a module of the body or stands in one of them. -/
theorem declares_iff : Declares body e ↔
    ∃ c ∈ childrenFrom 0 body, e = c.declaration ∨ Declares c.declaration.body e := by
  constructor
  · intro h
    induction h with
    | here h =>
        rw [← map_declaration_childrenFrom 0] at h
        obtain ⟨c, hc, rfl⟩ := List.mem_map.1 h
        exact ⟨c, hc, .inl rfl⟩
    | inside _ h ih =>
        obtain ⟨c, hc, rfl | hd⟩ := ih
        · exact ⟨c, hc, .inr (.here h)⟩
        · exact ⟨c, hc, .inr (.inside hd h)⟩
  · rintro ⟨c, hc, h⟩
    have hhere : Declares body c.declaration := by
      refine .here ?_
      rw [← map_declaration_childrenFrom 0]
      exact List.mem_map_of_mem hc
    obtain rfl | h := h
    · exact hhere
    · exact hhere.trans h

/-- A declaration is as deep as its path is long. -/
theorem DeclaredAt.depth_eq (h : DeclaredAt body path depth form e) : depth = path.length := by
  induction h with
  | here => rfl
  | inside _ _ ih => rw [ih, List.length_cons]

/-- The empty path leads to no declaration. -/
theorem DeclaredAt.path_ne_nil (h : DeclaredAt body path depth form e) : path ≠ [] := by
  cases h <;> exact List.cons_ne_nil _ _

/-- The path of a declaration leads through declarations. -/
theorem DeclaredAt.exists_of_prefix (h : DeclaredAt body path depth form e)
    {outer : FragmentPath} (houter : outer <+: path) (hne : outer ≠ []) :
    ∃ depth' form' d, DeclaredAt body outer depth' form' d := by
  obtain ⟨segment, outer, rfl⟩ := List.exists_cons_of_ne_nil hne
  induction h generalizing segment outer with
  | here h =>
      obtain ⟨rfl, hrest⟩ := List.cons_prefix_cons.1 houter
      obtain rfl := List.prefix_nil.1 hrest
      exact ⟨_, _, _, .here h⟩
  | inside h he ih =>
      obtain ⟨rfl, hrest⟩ := List.cons_prefix_cons.1 houter
      cases outer with
      | nil => exact ⟨_, _, _, .here h⟩
      | cons segment' outer =>
          obtain ⟨depth', form', d, hd⟩ := ih segment' outer hrest (List.cons_ne_nil _ _)
          exact ⟨_, _, _, .inside h hd⟩

/-- A declaration among the statements of a body ends its path with its name. -/
theorem DeclaredAt.name_of_importable (h : DeclaredAt body path depth form e)
    (hform : form = .importable) : ∃ name, e.name = some name ∧ path.getLast? = some name := by
  induction h with
  | here h =>
      cases h with
      | named _ hname => exact ⟨_, hname, rfl⟩
      | inline => cases hform
  | inside _ he ih =>
      obtain ⟨name, hname, hlast⟩ := ih hform
      exact ⟨name, hname, by rw [List.getLast?_cons_of_ne_nil he.path_ne_nil, hlast]⟩

/-- Every declaration is listed, under the path that leads to it. -/
theorem Traversal.mem_of_leads (h : Traversal text path children fragments) {c : Child}
    (hc : c ∈ children) (hleads : c.Leads inside depth form e) :
    .ofDeclaration text (path ++ inside) form e ∈ fragments := by
  induction h generalizing c inside depth with
  | nil => cases hc
  | @cons path c' children inner more hnames hinner hmore ihInner ihMore =>
      rw [List.cons_append]
      obtain rfl | hc := List.mem_cons.1 hc
      · obtain ⟨rfl, -, rfl, rfl⟩ | ⟨inside, depth', rfl, -, he⟩ := hleads
        · exact List.mem_cons_self ..
        · obtain ⟨c', hc', hleads⟩ := declaredAt_iff.1 he
          have hmem := ihInner hc' hleads
          rw [FragmentPath.child, List.append_assoc] at hmem
          exact List.mem_cons_of_mem _ (List.mem_append_left _ hmem)
      · exact List.mem_cons_of_mem _ (List.mem_append_right _ (ihMore hc hleads))

/-- A fragment is that of a declaration to which a module of a body at a path leads. -/
def Fragment.Leads (text : List Char) (path : FragmentPath) (children : List Child) (f : Fragment)
    (e : ModuleDeclaration) : Prop :=
  ∃ inside depth, ∃ c ∈ children, f.path = path ++ inside ∧ c.Leads inside depth f.form e ∧
    f = .ofDeclaration text f.path f.form e

/-- The listed fragments are those of the declarations, one for each. -/
theorem Traversal.exists_declarations (h : Traversal text path children fragments) :
    ∃ ds : List ModuleDeclaration,
      (∀ e, e ∈ ds ↔ ∃ c ∈ children, e = c.declaration ∨ Declares c.declaration.body e) ∧
        List.Forall₂ (Fragment.Leads text path children) fragments ds := by
  induction h with
  | nil => exact ⟨[], by simp, .nil⟩
  | @cons path c children inner more hnames hinner hmore ihInner ihMore =>
      obtain ⟨ds, hds, hinner⟩ := ihInner
      obtain ⟨es, hes, hmore⟩ := ihMore
      refine ⟨c.declaration :: ds ++ es, fun e => ?_, ?_⟩
      · rw [List.cons_append, List.mem_cons, List.mem_append, hds, hes, List.exists_mem_cons_iff,
          ← declares_iff, or_assoc]
      · rw [List.cons_append, List.cons_append]
        refine .cons ⟨[c.segment], 1, c, List.mem_cons_self .., rfl, .inl ⟨rfl, rfl, rfl, rfl⟩, rfl⟩
          (List.rel_append (hinner.imp fun f e hf => ?_) (hmore.imp fun f e hf => ?_))
        · obtain ⟨inside, depth, c', hc', hpath, hleads, hf⟩ := hf
          refine ⟨c.segment :: inside, depth + 1, c, List.mem_cons_self .., ?_, .inr ⟨inside, depth,
            rfl, rfl, declaredAt_iff.2 ⟨c', hc', hleads⟩⟩, hf⟩
          rw [hpath, FragmentPath.child, List.append_assoc]
          rfl
        · obtain ⟨inside, depth, c', hc', hf⟩ := hf
          exact ⟨inside, depth, c', List.mem_cons_of_mem _ hc', hf⟩

/-- The fragments of a body that stands at the empty path are those of the declarations in it. -/
theorem Traversal.exists_declaredAt (h : Traversal text [] (childrenFrom 0 body) fragments) :
    ∃ ds : List ModuleDeclaration, (∀ e, e ∈ ds ↔ Declares body e) ∧
      List.Forall₂ (fun f e => DeclaredAt body f.path f.depth f.form e ∧
        f = .ofDeclaration text f.path f.form e) fragments ds := by
  obtain ⟨ds, hds, hall⟩ := h.exists_declarations
  refine ⟨ds, fun e => (hds e).trans declares_iff.symm, ?_⟩
  refine hall.imp fun f e ⟨inside, depth, c, hc, hpath, hleads, hf⟩ => ⟨?_, hf⟩
  obtain rfl : f.path = inside := hpath
  have he := declaredAt_iff.2 ⟨c, hc, hleads⟩
  have hdepth : depth = f.depth := he.depth_eq
  exact hdepth ▸ he

/-- Each fragment that is listed for a body is that of a declaration at its path. -/
theorem Traversal.declaredAt_of_mem (h : Traversal text [] (childrenFrom 0 body) fragments)
    {f : Fragment} (hf : f ∈ fragments) : ∃ e, DeclaredAt body f.path f.depth f.form e ∧
      f = .ofDeclaration text f.path f.form e := by
  obtain ⟨ds, -, hall⟩ := h.exists_declaredAt
  have hmem : ∀ f ∈ fragments, ∃ e, DeclaredAt body f.path f.depth f.form e ∧
      f = .ofDeclaration text f.path f.form e :=
    ((List.forall₂_and_left fragments ds).1 (hall.imp fun f e hf => ⟨⟨e, hf⟩, hf⟩)).1
  exact hmem f hf

end Declarations

/-! ## Resources -/

/-- What a resource is made of. -/
theorem Resource.traversal_ofTree {tree : SyntaxTree} {r : Resource}
    (h : Resource.ofTree tree = .ok r) :
    (tree.body.filterMap Statement.fragmentName?).Nodup ∧
      r.root = Body.ofStatements tree.text [] tree.body ∧
      Traversal tree.text [] (childrenFrom 0 tree.body) r.fragments := by
  unfold Resource.ofTree at h
  obtain ⟨u, hnames, h⟩ := Except.bind_eq_ok h
  obtain ⟨fragments, hfragments, h⟩ := Except.bind_eq_ok h
  obtain ⟨-, -, h⟩ := Except.bind_eq_ok h
  cases h
  exact ⟨nodup_of_checkFragmentNames hnames, rfl, traversal_statementsFragments hfragments⟩

/-- Where no two members have one key, a member is found by its key. -/
theorem find?_key_eq_some_iff {α β : Type} [BEq β] [LawfulBEq β] {key : α → β} {as : List α}
    (h : (as.map key).Nodup) {k : β} {a : α} :
    as.find? (key · == k) = some a ↔ a ∈ as ∧ key a = k := by
  constructor
  · intro hfind
    exact ⟨List.mem_of_find?_eq_some hfind, by simpa using List.find?_some hfind⟩
  · rintro ⟨ha, rfl⟩
    obtain ⟨b, hb⟩ : ∃ b, as.find? (key · == key a) = some b :=
      Option.isSome_iff_exists.1 (List.find?_isSome.2 ⟨a, ha, beq_self_eq_true _⟩)
    have hkey : key b = key a := by simpa using List.find?_some hb
    obtain rfl := List.inj_on_of_nodup_map h (List.mem_of_find?_eq_some hb) ha hkey
    exact hb

namespace SyntaxTree

variable {tree : SyntaxTree} {text : List Char} {r : Resource}

/-- A fragment around another one is listed before it. -/
theorem mem_before {before after : List Fragment} {f g : Fragment}
    (h : (before ++ f :: after).Pairwise Fragment.Precedes) (hg : g ∈ before ++ f :: after)
    (hbelow : g.path <+: f.path) (hne : g.path ≠ f.path) : g ∈ before := by
  obtain hg | hg := List.mem_append.1 hg
  · exact hg
  · obtain rfl | hg := List.mem_cons.1 hg
    · exact absurd rfl hne
    · have hprecedes := (List.pairwise_cons.1 (List.pairwise_append.1 h).2.1).1 g hg
      exact absurd hbelow hprecedes.1

/-- Where paths are different, a fragment is found by its path. -/
theorem find?_path {fragments : List Fragment}
    (h : fragments.Pairwise fun f g => f.path ≠ g.path) {path : FragmentPath} {f : Fragment} :
    fragments.find? (·.path == path) = some f ↔ f ∈ fragments ∧ f.path = path :=
  find?_key_eq_some_iff (List.pairwise_map.2 h)

/-- The fragments of a resource are the declarations of its source text, in pre-order and each at
its own path. -/
theorem lists_ofTree (h : parse text = .ok tree) (hr : Resource.ofTree tree = .ok r) :
    tree.Lists r := by
  obtain ⟨hnames, hroot, htraversal⟩ := Resource.traversal_ofTree hr
  obtain ⟨root, fragments⟩ := r
  subst hroot
  have hapart := childrenApart_of_bodyAt h .whole hnames
  have hpreorder := htraversal.pairwise_precedes h hapart
  have hpaths : fragments.Pairwise fun f g => f.path ≠ g.path :=
    hpreorder.imp fun {f g} hfg (heq : f.path = g.path) => hfg.1 (heq ▸ List.prefix_rfl)
  -- each declaration has been met: its path leads to a child of some body
  have hcomplete : ∀ path depth form d, DeclaredAt tree.body path depth form d →
      .ofDeclaration tree.text path form d ∈ fragments ∧ depth = path.length := by
    intro path depth form d hd
    obtain ⟨c, hc, hleads⟩ := declaredAt_iff.1 hd
    exact ⟨htraversal.mem_of_leads hc hleads, hd.depth_eq⟩
  obtain ⟨ds, hds, hall⟩ := htraversal.exists_declaredAt
  have hfound : ∀ path f, (⟨Body.ofStatements tree.text [] tree.body, fragments⟩ :
      Resource).fragment? path = some f ↔ f ∈ fragments ∧ f.path = path :=
    fun path f => find?_path hpaths
  refine ⟨⟨ds, hds, ?_, hall⟩, hcomplete, hpreorder, List.pairwise_map.2 hpaths, ?_,
    fun f hf hform => ?_, hfound, rfl, fun path hne b => ?_⟩
  · have hspans : fragments.map Fragment.span = ds.map ModuleDeclaration.span := by
      rw [← List.forall₂_eq_eq_eq, List.forall₂_map_left_iff, List.forall₂_map_right_iff]
      refine hall.imp fun f d hf => ?_
      rw [hf.2]
      rfl
    have hstarts : (fragments.map Fragment.span).Pairwise fun a b => a.start < b.start :=
      List.pairwise_map.2 (hpreorder.imp fun hfg => hfg.2.1)
    rw [hspans, List.pairwise_map] at hstarts
    exact hstarts
  · rintro before f after rfl path hprefix hne hother
    obtain ⟨d, hd, -⟩ :=
      htraversal.declaredAt_of_mem (List.mem_append_right _ (List.mem_cons_self ..))
    obtain ⟨depth, form, e, he⟩ := hd.exists_of_prefix hprefix hne
    exact ⟨_, mem_before hpreorder (hcomplete _ _ _ _ he).1 hprefix hother, rfl⟩
  · obtain ⟨d, hd, hfd⟩ := htraversal.declaredAt_of_mem hf
    obtain ⟨name, hname, hlast⟩ := hd.name_of_importable hform
    exact ⟨name, by rw [hfd]; exact hname, hlast⟩
  · have hnonempty : path.isEmpty = false := by simpa using hne
    rw [Resource.body?, hnonempty, if_neg Bool.false_ne_true, Option.map_eq_some_iff]
    simp only [hfound, and_assoc]

/-- The fragments of the text with nested modules are its three declarations, in their order. -/
theorem lists_nested : parse nestedText = .ok ⟨nestedText, nestedBody⟩ ∧
    ∃ r, Resource.ofTree ⟨nestedText, nestedBody⟩ = .ok r ∧
      r.fragments.map Fragment.path = [["a"], ["a", "b"], ["a", "b", "%0"]] ∧
        (⟨nestedText, nestedBody⟩ : SyntaxTree).Lists r := by
  obtain ⟨r, hr, hpaths⟩ : ∃ r, Resource.ofTree ⟨nestedText, nestedBody⟩ = .ok r ∧
      r.fragments.map Fragment.path = [["a"], ["a", "b"], ["a", "b", "%0"]] :=
    ⟨_, rfl, by decide +kernel⟩
  exact ⟨parse_nestedText, r, hr, hpaths, lists_ofTree parse_nestedText hr⟩

end SyntaxTree

end ModuleGraph
