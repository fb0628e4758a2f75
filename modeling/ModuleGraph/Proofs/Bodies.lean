import ModuleGraph.Library

/-!
# Bodies that come from texts

Whatever a body declares about another module, it also requests that module: `Body.IsComplete`. All
modules of a source text have such bodies (`Resource.isComplete_ofText`).
-/

namespace ModuleGraph

/-- Each import and each re-export of a body is from one of its requests. -/
structure Body.IsComplete (b : Body) : Prop where
  imports : ∀ i ∈ b.imports, i.request ∈ b.requests
  indirectExports : ∀ e ∈ b.indirectExports, e.request ∈ b.requests
  starExports : b.starExports ⊆ b.requests

/-- All modules of a resource have complete bodies. -/
structure Resource.IsComplete (r : Resource) : Prop where
  root : r.root.IsComplete
  fragments : ∀ f ∈ r.fragments, f.body.IsComplete

/-! ## Statements -/

/-- The first occurrences of a list have all of its members. -/
theorem mem_firstOccurrences {α : Type} [BEq α] [LawfulBEq α] {a : α} {as : List α} :
    a ∈ firstOccurrences as ↔ a ∈ as := by
  induction as with
  | nil => rfl
  | cons b as ih =>
      rw [firstOccurrences, List.mem_cons, List.mem_filter, ih, List.mem_cons]
      by_cases h : a = b <;> simp [h]

namespace Statement

variable {s : Statement}

/-- A statement requests what its imports are from. -/
theorem request?_of_mem_imports {i : ImportEntry} (h : i ∈ s.imports) :
    s.request? = some i.request := by
  cases s <;> simp only [imports, List.mem_map, List.not_mem_nil] at h
  obtain ⟨b, -, rfl⟩ := h
  rfl

/-- A statement requests what its re-exports are from. -/
theorem request?_of_mem_indirectExports {e : IndirectExport} (h : e ∈ s.indirectExports) :
    s.request? = some e.request := by
  cases s with
  | exportNames names source span =>
      cases source with
      | none => simp [indirectExports] at h
      | some source =>
          obtain ⟨n, -, rfl⟩ := List.mem_map.1 h
          rfl
  | exportAll source name span =>
      cases name with
      | none => simp [indirectExports] at h
      | some name =>
          obtain rfl := List.mem_singleton.1 h
          rfl
  | _ => simp [indirectExports] at h

/-- A statement requests what its `export *` is from. -/
theorem request?_of_starExport? {source : Specifier} (h : s.starExport? = some source) :
    s.request? = some source := by
  cases s with
  | exportAll source' name span =>
      cases name with
      | none => exact h
      | some name => simp [starExport?] at h
  | _ => simp [starExport?] at h

end Statement

/-- Statements declare nothing about a module that they do not request. -/
theorem Body.isComplete_ofStatements (text : List Char) (path : FragmentPath)
    (statements : List Statement) : (ofStatements text path statements).IsComplete := by
  have hrequest : ∀ {s : Statement} {source : Specifier}, s ∈ statements →
      s.request? = some source → source ∈ (ofStatements text path statements).requests :=
    fun hs hsource => mem_firstOccurrences.2 (List.mem_filterMap.2 ⟨_, hs, hsource⟩)
  have himports : ∀ i ∈ (ofStatements text path statements).imports,
      i.request ∈ (ofStatements text path statements).requests := by
    intro i hi
    obtain ⟨s, hs, hi⟩ := List.mem_flatMap.1 hi
    exact hrequest hs (Statement.request?_of_mem_imports hi)
  constructor
  case imports => exact himports
  case indirectExports =>
    intro e he
    rcases List.mem_append.1 he with he | he
    · obtain ⟨s, hs, he⟩ := List.mem_flatMap.1 he
      exact hrequest hs (Statement.request?_of_mem_indirectExports he)
    · -- the export of an imported binding is from the module that the import is from
      obtain ⟨export?, -, hexport⟩ := List.mem_filterMap.1 he
      obtain ⟨i, hi, rfl⟩ := Option.map_eq_some_iff.1 hexport
      exact himports i (List.mem_reverse.1 (List.mem_of_find?_eq_some hi))
  case starExports =>
    intro source hsource
    obtain ⟨s, hs, hsource⟩ := List.mem_filterMap.1 hsource
    exact hrequest hs (Statement.request?_of_starExport? hsource)

/-! ## Trees -/

/-- A computation of two parts gives a result if each of them does. -/
theorem Except.bind_eq_ok {ε α β : Type} {x : Except ε α} {f : α → Except ε β} {b : β}
    (h : x >>= f = .ok b) : ∃ a, x = .ok a ∧ f a = .ok b := by
  cases x with
  | error e => cases h
  | ok a => exact ⟨a, rfl, h⟩

/-- A computation of two parts fails in the first of them or, behind it, in the second. -/
theorem Except.bind_eq_error {ε α β : Type} {x : Except ε α} {f : α → Except ε β} {e : ε}
    (h : x >>= f = .error e) : x = .error e ∨ ∃ a, x = .ok a ∧ f a = .error e := by
  cases x with
  | error e' =>
      cases h
      exact .inl rfl
  | ok a => exact .inr ⟨a, rfl, h⟩

/-- A computation whose result is only mapped fails with its own fault. -/
theorem Except.bind_ok_eq_error {ε α β : Type} {x : Except ε α} {f : α → β} {e : ε}
    (h : (x >>= fun a => .ok (f a)) = .error e) : x = .error e := by
  rcases Except.bind_eq_error h with hx | ⟨a, -, hok⟩
  · exact hx
  · cases hok

/-- The module declarations that stand in a statement, but in no other declaration there. -/
def Statement.modules : Statement → List ModuleDeclaration
  | .module d => [d]
  | .code c | .exportDeclaration _ c _ | .exportDefault _ c _ => c.inlineModules
  | .importFrom .. | .exportNames .. | .exportAll .. => []

/-- A module declaration stands in statements, at any depth. -/
inductive Declares (body : List Statement) : ModuleDeclaration → Prop where
  | here {d : ModuleDeclaration} (h : d ∈ body.flatMap Statement.modules) : Declares body d
  | inside {d e : ModuleDeclaration} (hd : Declares body d)
      (h : e ∈ d.body.flatMap Statement.modules) : Declares body e

namespace Declares

variable {body body' : List Statement} {d e : ModuleDeclaration}

/-- What is declared in some statements is declared in all that have them. -/
theorem mono (h : Declares body d) (hbody : body ⊆ body') : Declares body' d := by
  induction h with
  | here h =>
      obtain ⟨st, hst, hd⟩ := List.mem_flatMap.1 h
      exact .here (List.mem_flatMap.2 ⟨st, hbody hst, hd⟩)
  | inside _ h ih => exact .inside ih h

/-- What is declared inside of a declaration is declared where the declaration stands. -/
theorem trans (hd : Declares body d) (he : Declares d.body e) : Declares body e := by
  induction he with
  | here h => exact .inside hd h
  | inside _ h ih => exact .inside ih h

end Declares

/-- A fragment is that of a declaration: it has its place, and the body of its statements. -/
structure Fragment.IsOf (text : List Char) (f : Fragment) (d : ModuleDeclaration) : Prop where
  span : f.span = d.span
  body : f.body = Body.ofStatements text f.path d.body

/-- A fragment is that of a declaration in statements, at any depth. -/
def Fragment.Stands (text : List Char) (body : List Statement) (f : Fragment) : Prop :=
  ∃ d, Declares body d ∧ f.IsOf text d

namespace Fragment.Stands

variable {text : List Char} {body : List Statement} {f : Fragment} {st : Statement}

/-- A fragment of some statements is a fragment of all that have them. -/
theorem mono {body' : List Statement} (h : Stands text body f) (hbody : body ⊆ body') :
    Stands text body' f := by
  obtain ⟨d, hd, hf⟩ := h
  exact ⟨d, hd.mono hbody, hf⟩

/-- A fragment of a declaration, or of one in its body. -/
theorem of_declaration {d : ModuleDeclaration} (hst : st ∈ body) (hd : d ∈ st.modules)
    (h : f.IsOf text d ∨ Stands text d.body f) : Stands text body f := by
  have hhere : Declares body d := .here (List.mem_flatMap.2 ⟨st, hst, hd⟩)
  obtain h | ⟨e, he, hf⟩ := h
  · exact ⟨d, hhere, h⟩
  · exact ⟨e, hhere.trans he, hf⟩

/-- The fragments of the modules of a statement and those of the statements behind it. -/
theorem append {rest : List Statement} {here more : List Fragment}
    (hhere : ∀ f ∈ here, ∃ d ∈ st.modules, f.IsOf text d ∨ Stands text d.body f)
    (hmore : ∀ f ∈ more, Stands text rest f) : ∀ f ∈ here ++ more, Stands text (st :: rest) f := by
  refine List.forall_mem_append.2 ⟨fun f hf => ?_, fun f hf => ?_⟩
  · obtain ⟨d, hd, h⟩ := hhere f hf
    exact .of_declaration (List.mem_cons_self ..) hd h
  · exact (hmore f hf).mono (List.subset_cons_self ..)

end Fragment.Stands

mutual

/-- The fragments of statements are those of declarations in them. -/
theorem stands_statementsFragments {text : List Char} {path : FragmentPath} {ordinal : Nat} :
    ∀ {statements : List Statement} {fragments : List Fragment},
      statementsFragments text path ordinal statements = .ok fragments →
      ∀ f ∈ fragments, f.Stands text statements
  | [], fragments, h => by
      rw [statementsFragments] at h
      cases h
      simp
  | .module d :: rest, fragments, h => by
      rw [statementsFragments] at h
      have hmodule : d ∈ (Statement.module d).modules := List.mem_singleton.2 rfl
      -- named or not, the module is walked through before the statements behind it
      cases hname : d.name with
      | some name =>
          simp only [hname] at h
          obtain ⟨here, hhere, h⟩ := Except.bind_eq_ok h
          obtain ⟨more, hmore, h⟩ := Except.bind_eq_ok h
          cases h
          exact .append (fun f hf => ⟨d, hmodule, stands_declarationFragments hhere f hf⟩)
            (stands_statementsFragments hmore)
      | none =>
          simp only [hname] at h
          obtain ⟨here, hhere, h⟩ := Except.bind_eq_ok h
          obtain ⟨more, hmore, h⟩ := Except.bind_eq_ok h
          cases h
          exact .append (fun f hf => ⟨d, hmodule, stands_declarationFragments hhere f hf⟩)
            (stands_statementsFragments hmore)
  | .code c :: rest, fragments, h
  | .exportDeclaration _ c _ :: rest, fragments, h
  | .exportDefault _ c _ :: rest, fragments, h => by
      rw [statementsFragments] at h
      obtain ⟨here, hhere, h⟩ := Except.bind_eq_ok h
      obtain ⟨more, hmore, h⟩ := Except.bind_eq_ok h
      cases h
      exact .append (stands_codeFragments hhere) (stands_statementsFragments hmore)
  | .importFrom .. :: rest, fragments, h
  | .exportNames .. :: rest, fragments, h
  | .exportAll .. :: rest, fragments, h => by
      rw [statementsFragments] at h
      exact fun f hf => (stands_statementsFragments h f hf).mono (List.subset_cons_self ..)

/-- The fragments of code are those of the modules in the code. -/
theorem stands_codeFragments {text : List Char} {path : FragmentPath} {ordinal : Nat} :
    ∀ {code : Code} {fragments : List Fragment},
      codeFragments text path ordinal code = .ok fragments →
      ∀ f ∈ fragments, ∃ d ∈ code.inlineModules, f.IsOf text d ∨ f.Stands text d.body
  | .mk _ declarations, fragments, h => by
      rw [codeFragments] at h
      exact stands_inlineFragments h

/-- The fragments of declarations are their own and those of the declarations inside of them. -/
theorem stands_inlineFragments {text : List Char} {path : FragmentPath} {ordinal : Nat} :
    ∀ {declarations : List ModuleDeclaration} {fragments : List Fragment},
      inlineFragments text path ordinal declarations = .ok fragments →
      ∀ f ∈ fragments, ∃ d ∈ declarations, f.IsOf text d ∨ f.Stands text d.body
  | [], fragments, h => by
      rw [inlineFragments] at h
      cases h
      simp
  | d :: ds, fragments, h => by
      rw [inlineFragments] at h
      obtain ⟨here, hhere, h⟩ := Except.bind_eq_ok h
      obtain ⟨more, hmore, h⟩ := Except.bind_eq_ok h
      cases h
      refine List.forall_mem_append.2 ⟨fun f hf => ⟨d, List.mem_cons_self ..,
        stands_declarationFragments hhere f hf⟩, fun f hf => ?_⟩
      obtain ⟨e, he, hf⟩ := stands_inlineFragments hmore f hf
      exact ⟨e, List.mem_cons_of_mem _ he, hf⟩

/-- The fragments of a declaration are its own and those of its statements. -/
theorem stands_declarationFragments {text : List Char} {path : FragmentPath}
    {form : FragmentForm} : ∀ {d : ModuleDeclaration} {fragments : List Fragment},
      declarationFragments text path form d = .ok fragments →
      ∀ f ∈ fragments, f.IsOf text d ∨ f.Stands text d.body
  | .mk name exported _ statements span _, fragments, h => by
      rw [declarationFragments] at h
      obtain ⟨-, -, h⟩ := Except.bind_eq_ok h
      obtain ⟨inner, hinner, h⟩ := Except.bind_eq_ok h
      obtain ⟨-, -, h⟩ := Except.bind_eq_ok h
      cases h
      exact List.forall_mem_cons.2 ⟨.inl ⟨rfl, rfl⟩,
        fun f hf => .inr (stands_statementsFragments hinner f hf)⟩

end

/-- The bodies of a resource are those of the statements of its tree and of the declarations in
it. -/
theorem Resource.ofTree_eq_ok {tree : SyntaxTree} {resource : Resource}
    (h : ofTree tree = .ok resource) : resource.root = Body.ofStatements tree.text [] tree.body ∧
      ∀ f ∈ resource.fragments, f.Stands tree.text tree.body := by
  unfold ofTree at h
  obtain ⟨-, -, h⟩ := Except.bind_eq_ok h
  obtain ⟨fragments, hfragments, h⟩ := Except.bind_eq_ok h
  obtain ⟨-, -, h⟩ := Except.bind_eq_ok h
  cases h
  exact ⟨rfl, stands_statementsFragments hfragments⟩

namespace Resource

/-- All modules of an extracted source request what they import and export again. -/
theorem isComplete_ofTree {tree : SyntaxTree} {resource : Resource}
    (h : ofTree tree = .ok resource) : resource.IsComplete := by
  obtain ⟨hroot, hfragments⟩ := ofTree_eq_ok h
  refine ⟨hroot ▸ Body.isComplete_ofStatements _ _ _, fun f hf => ?_⟩
  obtain ⟨d, -, hbody⟩ := hfragments f hf
  exact hbody.body ▸ Body.isComplete_ofStatements _ _ d.body

/-- The resource of a text is that of its tree. -/
theorem ofText_eq_ok {text : String} {resource : Resource} (h : ofText text = .ok resource) :
    ∃ tree, SyntaxTree.parse text.toList = .ok tree ∧ ofTree tree = .ok resource := by
  unfold ofText at h
  split at h
  · cases h
  · next tree hparse =>
      cases htree : ofTree tree with
      | error fault =>
          rw [htree] at h
          cases h
      | ok resource' =>
          rw [htree] at h
          cases h
          exact ⟨tree, hparse, htree⟩

/-- All modules of a source text have complete bodies. -/
theorem isComplete_ofText {text : String} {resource : Resource} (h : ofText text = .ok resource) :
    resource.IsComplete := by
  obtain ⟨tree, -, htree⟩ := ofText_eq_ok h
  exact isComplete_ofTree htree

end Resource

end ModuleGraph
