import ModuleGraph.Proofs.KeyTexts

/-!
# The bodies of a source text

A source text has a body for its top-level module and one for each module declared in it. The path
to a declaration also leads to its body (`HasBodyAt`). It leads to no other body if no body on the
way gives one name to two modules (`HasOnlyBodyAt.eq_of_hasBodyAt`).
-/

namespace ModuleGraph

/-- The bodies at a path from a body: itself at the empty path, and the bodies inside of its modules
behind their segments. -/
inductive HasBodyAt : List Statement → FragmentPath → List Statement → Prop where
  | here {body : List Statement} : HasBodyAt body [] body
  | inside {body inner : List Statement} {segment : String} {form : FragmentForm}
      {d : ModuleDeclaration} {path : FragmentPath} (h : Member body segment form d)
      (hinner : HasBodyAt d.body path inner) : HasBodyAt body (segment :: path) inner

/-- A body at a path on which each body gives different names to its modules. -/
inductive HasOnlyBodyAt : List Statement → FragmentPath → List Statement → Prop where
  | here {body : List Statement} : HasOnlyBodyAt body [] body
  | inside {body inner : List Statement} {segment : String} {form : FragmentForm}
      {d : ModuleDeclaration} {path : FragmentPath}
      (hnames : (body.filterMap Statement.fragmentName?).Nodup) (h : Member body segment form d)
      (hinner : HasOnlyBodyAt d.body path inner) : HasOnlyBodyAt body (segment :: path) inner

variable {body inner other : List Statement} {path : FragmentPath} {segment : String}
  {form form' : FragmentForm} {d d' : ModuleDeclaration} {depth : Nat}

/-! ## Bodies and declarations -/

/-- The body of a declaration stands at the path of the declaration. -/
theorem DeclaredAt.hasBodyAt (h : DeclaredAt body path depth form d) :
    HasBodyAt body path d.body := by
  induction h with
  | here h => exact .inside h .here
  | inside h _ ih => exact .inside h ih

namespace HasBodyAt

/-- A body behind a path is that of a declaration. -/
theorem exists_declaredAt (h : HasBodyAt body path inner) (hne : path ≠ []) :
    ∃ depth form d, DeclaredAt body path depth form d ∧ d.body = inner := by
  induction h with
  | here => exact absurd rfl hne
  | @inside body inner segment form d path h hinner ih =>
      cases path with
      | nil =>
          cases hinner
          exact ⟨1, form, d, .here h, rfl⟩
      | cons next rest =>
          obtain ⟨depth, form', e, he, hbody⟩ := ih (List.cons_ne_nil _ _)
          exact ⟨depth + 1, form', e, .inside h he, hbody⟩

/-- The modules of a body are declared behind its path. -/
theorem declaredAt_child (h : HasBodyAt body path inner) (hd : Member inner segment form d) :
    DeclaredAt body (path.child segment) (path.length + 1) form d := by
  induction h with
  | here => exact .here hd
  | inside h _ ih => exact .inside h (ih hd)

/-- What a body at some path declares is declared where the path begins. -/
theorem declares (h : HasBodyAt body path inner) (hd : d ∈ inner.flatMap Statement.modules) :
    Declares body d := by
  induction h with
  | here => exact .here hd
  | inside h _ ih => exact h.declares.trans (ih hd)

/-- A path from one body to another is spelled properly if all modules have proper names. -/
theorem isProper (hproper : NamesProperly body) (h : HasBodyAt body path inner) :
    path.IsProper := by
  cases hpath : path with
  | nil => exact FragmentPath.isProper_nil
  | cons segment rest =>
      have hne : path ≠ [] := hpath ▸ List.cons_ne_nil _ _
      obtain ⟨depth, form, d, hd, -⟩ := h.exists_declaredAt hne
      exact hpath ▸ (hd.isProper hproper).1

end HasBodyAt

/-- Each declaration stands directly in a body. -/
theorem Declares.exists_hasBodyAt (h : Declares body d) :
    ∃ path inner, HasBodyAt body path inner ∧ d ∈ inner.flatMap Statement.modules := by
  induction h with
  | here h => exact ⟨[], body, .here, h⟩
  | @inside d e _ h ih =>
      obtain ⟨path, inner, hinner, hd⟩ := ih
      rw [← map_declaration_childrenFrom 0] at hd
      obtain ⟨c, hc, rfl⟩ := List.mem_map.1 hd
      exact ⟨_, _, (hinner.declaredAt_child (mem_childrenFrom.1 hc)).hasBodyAt, h⟩

/-! ## One body at a path -/

/-- A segment leads to one module of a body that gives each name once. -/
theorem Member.unique (hproper : NamesProperly body)
    (hnames : (body.filterMap Statement.fragmentName?).Nodup) (h : Member body segment form d)
    (h' : Member body segment form' d') : form = form' ∧ d = d' := by
  have hsegments : ((childrenFrom 0 body).map Child.segment).Nodup :=
    List.pairwise_map.2 (pairwise_segment hnames fun d hd name hname =>
      hproper d name (.here hd) hname)
  have hchild : (⟨segment, form, d⟩ : Child) = ⟨segment, form', d'⟩ :=
    List.inj_on_of_nodup_map hsegments (mem_childrenFrom.2 h) (mem_childrenFrom.2 h') rfl
  exact ⟨congrArg Child.form hchild, congrArg Child.declaration hchild⟩

/-- A path leads to one declaration if all bodies give each name once. -/
theorem DeclaredAt.unique (hproper : NamesProperly body)
    (hnames : ∀ path inner, HasBodyAt body path inner →
      (inner.filterMap Statement.fragmentName?).Nodup)
    (h : DeclaredAt body path depth form d) {depth' : Nat}
    (h' : DeclaredAt body path depth' form' d') : form = form' ∧ d = d' := by
  induction h generalizing depth' with
  | here h =>
      cases h' with
      | here h' => exact h.unique hproper (hnames _ _ .here) h'
      | inside _ h' => exact absurd rfl h'.path_ne_nil
  | inside h he ih =>
      cases h' with
      | here => exact absurd rfl he.path_ne_nil
      | inside h' he' =>
          obtain ⟨-, rfl⟩ := h.unique hproper (hnames _ _ .here) h'
          exact ih (hproper.inside h.declares)
            (fun path inner hinner => hnames _ _ (.inside h hinner)) he'

namespace HasOnlyBodyAt

/-- The only body at a path is a body at this path. -/
theorem hasBodyAt (h : HasOnlyBodyAt body path inner) : HasBodyAt body path inner := by
  induction h with
  | here => exact .here
  | inside _ h _ ih => exact .inside h ih

/-- No other body is at a path on which names are given once. -/
theorem eq_of_hasBodyAt (hproper : NamesProperly body) (h : HasOnlyBodyAt body path inner)
    (hother : HasBodyAt body path other) : other = inner := by
  induction h with
  | here =>
      cases hother
      rfl
  | inside hnames h _ ih =>
      cases hother with
      | inside h' hother =>
          obtain ⟨-, rfl⟩ := h.unique hproper hnames h'
          exact ih (hproper.inside h.declares) hother

end HasOnlyBodyAt

end ModuleGraph
