import ModuleGraph.Proofs.BodyPaths

/-!
# Distinct names

A tree of statements is a resource if and only if each body in it, at any depth, gives different
names to the modules among its statements and different names to what it exports. Otherwise the
fault is about a name that one of the bodies gives more than once (`Resource.ofTree_distinct`).
-/

namespace ModuleGraph

/-- The names that a statement exports. An exported module is no export of its body: it is found
under its path. -/
def Statement.exportedNames : Statement → List String
  | .exportNames names _ _ => names.map ExportedName.exported
  | .exportAll _ (some name) _ => [name]
  | .exportDeclaration names _ _ => names
  | .exportDefault .. => ["default"]
  | _ => []

/-- A body gives each name once, to the modules among its statements and to its exports. -/
structure Distinct (statements : List Statement) : Prop where
  modules : (statements.filterMap Statement.fragmentName?).Nodup
  exports : (statements.flatMap Statement.exportedNames).Nodup

/-- All bodies in a body give each name once. -/
def DistinctInside (body : List Statement) : Prop :=
  ∀ path inner, HasBodyAt body path inner → Distinct inner

/-- A fault is about the body of statements at a path, which give the name more than once. -/
def ExtractionFault.Repeats (path : FragmentPath) (statements : List Statement) :
    ExtractionFault → Prop
  | .duplicateFragment name path' =>
    path' = path ∧ 2 ≤ (statements.filterMap Statement.fragmentName?).count name
  | .duplicateExport name path' =>
    path' = path ∧ 2 ≤ (statements.flatMap Statement.exportedNames).count name

/-- A fault is about a body inside of a body at a path, and no other body has its path. -/
def ExtractionFault.RepeatsInside (path : FragmentPath) (body : List Statement)
    (fault : ExtractionFault) : Prop :=
  ∃ inside inner, HasOnlyBodyAt body inside inner ∧ fault.Repeats (path ++ inside) inner

/-! ## Descriptions of bodies -/

namespace FragmentPath

variable {path path' : FragmentPath}

/-- Paths that are spelled properly are told apart by their texts. -/
theorem text_injective (h : path.IsProper) (h' : path'.IsProper) (hne : path ≠ [])
    (hne' : path' ≠ []) (htext : path.text = path'.text) : path = path' := by
  have hread := ofFragment?_encoded hne h
  rw [htext, ofFragment?_encoded hne' h'] at hread
  exact (Option.some.inj hread).symm

/-- Error messages describe each body by its path. -/
theorem describe_injective (h : path.IsProper) (h' : path'.IsProper)
    (hdescribe : path.describe = path'.describe) : path = path' := by
  -- the two kinds of descriptions start with different letters
  have hroot : ∀ text : String, "the top-level module" ≠ "fragment " ++ text := by
    intro text heq
    have hhead := congrArg (·.toList.head?) heq
    simp at hhead
  cases path with
  | nil =>
      cases path' with
      | nil => rfl
      | cons => exact absurd hdescribe (hroot _)
  | cons segment rest =>
      cases path' with
      | nil => exact absurd hdescribe.symm (hroot _)
      | cons segment' rest' =>
          refine text_injective h h' (List.cons_ne_nil _ _) (List.cons_ne_nil _ _) ?_
          exact String.append_right_inj _ |>.1 hdescribe

end FragmentPath

/-! ## Repeated names -/

section Names

variable {seen names : List String} {name : String} {path : FragmentPath}
  {statements : List Statement} {fault : ExtractionFault}

/-- A repeated name is given twice at least. -/
theorem two_le_count_of_firstRepeated? (h : firstRepeated? seen names = some name) :
    2 ≤ (seen ++ names).count name := by
  induction names generalizing seen with
  | nil => cases h
  | cons first names ih =>
      rw [firstRepeated?] at h
      split at h
      · next hseen =>
          obtain rfl := Option.some.inj h
          have hcount : 0 < seen.count first := List.count_pos_iff.2 hseen
          rw [List.count_append, List.count_cons_self]
          omega
      · have hperm : (seen ++ first :: names).Perm (first :: seen ++ names) := List.perm_middle
        rw [hperm.count_eq]
        exact ih h

/-- The names of local exports and of indirect exports are those that the statements export. -/
theorem perm_exportedNames (statements : List Statement) :
    ((statements.flatMap Statement.localExports).map LocalExport.exportName ++
      (statements.flatMap Statement.indirectExports).map IndirectExport.exportName).Perm
        (statements.flatMap Statement.exportedNames) := by
  have hstatement : Statement.exportedNames = fun st =>
      st.localExports.map LocalExport.exportName ++
        st.indirectExports.map IndirectExport.exportName := by
    funext st
    cases st with
    | exportNames names source _ =>
        cases source <;>
          simp [Statement.exportedNames, Statement.localExports, Statement.indirectExports]
    | exportAll _ name _ =>
        cases name <;> rfl
    | exportDeclaration names _ _ =>
        simp [Statement.exportedNames, Statement.localExports, Statement.indirectExports,
          Function.comp_def]
    | _ => rfl
  rw [hstatement, List.map_flatMap, List.map_flatMap]
  exact List.flatMap_append_perm ..

/-- An export of an imported binding keeps its name. -/
theorem map_exportName_filterMap_reexport? (imports : List ImportEntry)
    (exports : List LocalExport) :
    (exports.filterMap (Body.reexport? imports)).map IndirectExport.exportName =
      (exports.filter fun e => !(Body.reexport? imports e).isNone).map LocalExport.exportName := by
  induction exports with
  | nil => rfl
  | cons e exports ih =>
      cases hreexport : Body.reexport? imports e with
      | none => simpa [hreexport] using ih
      | some indirect =>
          obtain ⟨i, -, rfl⟩ := Option.map_eq_some_iff.1 hreexport
          simpa [hreexport] using ih

open scoped List in
/-- A body exports the names that its statements export, in some order. -/
theorem Body.perm_exportNames (text : List Char) (path : FragmentPath)
    (statements : List Statement) : (Body.ofStatements text path statements).exportNames ~
      statements.flatMap Statement.exportedNames := by
  let exports := statements.flatMap Statement.localExports
  let isLocal (e : LocalExport) : Bool :=
    (Body.reexport? (statements.flatMap Statement.imports) e).isNone
  let indirect := (statements.flatMap Statement.indirectExports).map IndirectExport.exportName
  have hsplit : (exports.filter isLocal).map LocalExport.exportName ++
      (exports.filter (!isLocal ·)).map LocalExport.exportName ~
        exports.map LocalExport.exportName := by
    rw [← List.map_append]
    exact (List.filter_append_perm isLocal exports).map _
  calc (Body.ofStatements text path statements).exportNames
    _ = (exports.filter isLocal).map LocalExport.exportName ++
          (indirect ++ (exports.filter (!isLocal ·)).map LocalExport.exportName) := by
        rw [Body.exportNames, Body.ofStatements, List.map_append,
          map_exportName_filterMap_reexport?]
    _ ~ (exports.filter isLocal).map LocalExport.exportName ++
          ((exports.filter (!isLocal ·)).map LocalExport.exportName ++ indirect) :=
        List.perm_append_comm.append_left _
    _ ~ exports.map LocalExport.exportName ++ indirect := by
        rw [← List.append_assoc]
        exact hsplit.append_right _
    _ ~ statements.flatMap Statement.exportedNames := perm_exportedNames statements

/-! ## The checks of a body -/

/-- The check of module names blames a name that the statements give more than once. -/
theorem repeats_of_checkFragmentNames (h : checkFragmentNames path statements = .error fault) :
    fault.Repeats path statements := by
  unfold checkFragmentNames at h
  split at h
  · next hrepeated =>
      cases h
      exact ⟨rfl, two_le_count_of_firstRepeated? hrepeated⟩
  · cases h

/-- The check of export names blames a name that the statements export more than once. -/
theorem repeats_of_checkExportNames {text : List Char}
    (h : checkExportNames path (.ofStatements text path statements) = .error fault) :
    fault.Repeats path statements := by
  unfold checkExportNames at h
  split at h
  · next hrepeated =>
      cases h
      have hcount := two_le_count_of_firstRepeated? hrepeated
      rw [List.nil_append, (Body.perm_exportNames ..).count_eq] at hcount
      exact ⟨rfl, hcount⟩
  · cases h

/-- Names that pass the check are exported once. -/
theorem nodup_of_checkExportNames {text : List Char} {u : Unit}
    (h : checkExportNames path (.ofStatements text path statements) = .ok u) :
    (statements.flatMap Statement.exportedNames).Nodup := by
  unfold checkExportNames at h
  split at h
  · cases h
  · next hnames =>
      exact (Body.perm_exportNames ..).nodup_iff.1 (nodup_of_firstRepeated? hnames).1

/-- Where a name is repeated, the names are not distinct. -/
theorem ExtractionFault.Repeats.not_distinct (h : fault.Repeats path statements) :
    ¬ Distinct statements := by
  intro hdistinct
  cases fault with
  | duplicateFragment name _ =>
      have hcount := List.nodup_iff_count_le_one.1 hdistinct.modules name
      have := h.2
      omega
  | duplicateExport name _ =>
      have hcount := List.nodup_iff_count_le_one.1 hdistinct.exports name
      have := h.2
      omega

end Names

/-! ## The walk -/

/-- If a computation has a result, something holds, and a fault is about something. -/
def Checks {α : Type} (x : Except ExtractionFault α) (holds : Prop)
    (about : ExtractionFault → Prop) : Prop :=
  match x with
  | .ok _ => holds
  | .error fault => about fault

/-- The bodies in a body are itself and those inside of its modules. -/
theorem distinctInside_iff {body : List Statement} : DistinctInside body ↔
    Distinct body ∧ ∀ c ∈ childrenFrom 0 body, DistinctInside c.declaration.body := by
  constructor
  · intro h
    exact ⟨h _ _ .here, fun c hc path inner hinner =>
      h _ _ (.inside (mem_childrenFrom.1 hc) hinner)⟩
  · rintro ⟨hbody, hinside⟩ path inner hinner
    cases hinner with
    | here => exact hbody
    | inside h hinner => exact hinside ⟨_, _, _⟩ (mem_childrenFrom.2 h) _ _ hinner

/-- A walk through modules of a body at a path checks the bodies inside of them. -/
def ChecksChildren {α : Type} (x : Except ExtractionFault α) (path : FragmentPath)
    (children : List Child) : Prop :=
  Checks x (∀ c ∈ children, DistinctInside c.declaration.body) fun fault =>
    ∃ c ∈ children, fault.RepeatsInside (path.child c.segment) c.declaration.body

section Walk

variable {α β γ : Type} {x : Except ExtractionFault α}
  {path : FragmentPath} {children children' : List Child} {body : List Statement}

/-- Where there are no modules, there is nothing to check. -/
theorem ChecksChildren.ok {a : α} : ChecksChildren (.ok a) path [] :=
  fun _ hc => absurd hc List.not_mem_nil

/-- Two walks, one after the other, check the bodies of both. -/
theorem ChecksChildren.both {y : Except ExtractionFault β} {g : α → β → γ}
    (hx : ChecksChildren x path children) (hy : ChecksChildren y path children') :
    ChecksChildren (do let a ← x; let b ← y; .ok (g a b)) path (children ++ children') := by
  cases x with
  | error fault =>
      obtain ⟨c, hc, hfault⟩ := hx
      exact ⟨c, List.mem_append_left _ hc, hfault⟩
  | ok a =>
      cases y with
      | error fault =>
          obtain ⟨c, hc, hfault⟩ := hy
          exact ⟨c, List.mem_append_right _ hc, hfault⟩
      | ok b => exact List.forall_mem_append.2 ⟨hx, hy⟩

/-- The check of one module. -/
theorem Checks.child {c : Child} (h : Checks x (DistinctInside c.declaration.body)
    (·.RepeatsInside (path.child c.segment) c.declaration.body)) : ChecksChildren x path [c] := by
  cases x with
  | error fault => exact ⟨c, List.mem_singleton_self c, h⟩
  | ok a => exact List.forall_mem_singleton.2 h

/-- A body is checked by way of its names, its modules and its exports. -/
theorem checks_body {text : List Char} {g : α → β}
    (hx : ChecksChildren x path (childrenFrom 0 body)) : Checks (do
      checkFragmentNames path body
      let a ← x
      checkExportNames path (.ofStatements text path body)
      .ok (g a)) (DistinctInside body) (·.RepeatsInside path body) := by
  have hself : ∀ fault : ExtractionFault, fault.Repeats path body →
      fault.RepeatsInside path body := by
    intro fault hfault
    exact ⟨[], body, .here, by rwa [List.append_nil]⟩
  cases hnames : checkFragmentNames path body with
  | error fault => exact hself fault (repeats_of_checkFragmentNames hnames)
  | ok u =>
      -- the names have been checked before the walk, so that a path inside leads to one body only
      have hnodup := nodup_of_checkFragmentNames hnames
      cases x with
      | error fault =>
          obtain ⟨c, hc, inside, inner, hinner, hfault⟩ := hx
          refine ⟨c.segment :: inside, inner, .inside hnodup (mem_childrenFrom.1 hc) hinner, ?_⟩
          rwa [FragmentPath.child, List.append_assoc] at hfault
      | ok a =>
          cases hexports : checkExportNames path (.ofStatements text path body) with
          | error fault => exact hself fault (repeats_of_checkExportNames hexports)
          | ok v =>
              exact distinctInside_iff.2 ⟨⟨hnodup, nodup_of_checkExportNames hexports⟩, hx⟩

end Walk

-- by recursion on the tree, for each list of modules that the walk goes through
mutual

/-- The walk through statements checks the bodies of the modules declared in them. -/
theorem checks_statementsFragments (text : List Char) (path : FragmentPath) :
    ∀ (ordinal : Nat) (statements : List Statement),
      ChecksChildren (statementsFragments text path ordinal statements) path
        (childrenFrom ordinal statements)
  | _, [] => by
      rw [statementsFragments]
      exact .ok
  | ordinal, .module d :: rest => by
      rw [statementsFragments]
      cases hname : d.name with
      | some name =>
          simp only [childrenFrom, Statement.children, Statement.inlineModules, hname]
          exact .both (.child (checks_declarationFragments text _ _ d))
            (checks_statementsFragments text path _ rest)
      | none =>
          simp only [childrenFrom, Statement.children, Statement.inlineModules, hname]
          exact .both (.child (checks_declarationFragments text _ _ d))
            (checks_statementsFragments text path _ rest)
  | ordinal, .code c :: rest
  | ordinal, .exportDeclaration _ c _ :: rest
  | ordinal, .exportDefault _ c _ :: rest => by
      rw [statementsFragments]
      exact .both (checks_codeFragments text path ordinal c)
        (checks_statementsFragments text path _ rest)
  | ordinal, .importFrom .. :: rest
  | ordinal, .exportNames .. :: rest
  | ordinal, .exportAll .. :: rest => by
      rw [statementsFragments]
      exact checks_statementsFragments text path ordinal rest

/-- The walk through code checks the bodies of its modules. -/
theorem checks_codeFragments (text : List Char) (path : FragmentPath) (ordinal : Nat) :
    ∀ code : Code, ChecksChildren (codeFragments text path ordinal code) path
      (inlineChildren ordinal code.inlineModules)
  | .mk _ declarations => by
      rw [codeFragments]
      exact checks_inlineFragments text path ordinal declarations

/-- The walk through declarations checks their bodies. -/
theorem checks_inlineFragments (text : List Char) (path : FragmentPath) :
    ∀ (ordinal : Nat) (declarations : List ModuleDeclaration),
      ChecksChildren (inlineFragments text path ordinal declarations) path
        (inlineChildren ordinal declarations)
  | _, [] => by
      rw [inlineFragments]
      exact .ok
  | ordinal, d :: ds => by
      rw [inlineFragments]
      exact .both (.child (checks_declarationFragments text _ _ d))
        (checks_inlineFragments text path _ ds)

/-- The walk into a declaration checks its body and all bodies inside. -/
theorem checks_declarationFragments (text : List Char) (path : FragmentPath) (form : FragmentForm) :
    ∀ d : ModuleDeclaration, Checks (declarationFragments text path form d)
      (DistinctInside d.body) (·.RepeatsInside path d.body)
  | .mk name exported _ statements span _ => by
      rw [declarationFragments]
      exact checks_body (checks_statementsFragments text path 0 statements)

end

namespace Resource

variable {text : List Char} {tree : SyntaxTree} {r : Resource} {path : FragmentPath} {b : Body}

/-- Extracting a source checks all of its bodies. -/
theorem checks_ofTree (tree : SyntaxTree) : Checks (ofTree tree) (DistinctInside tree.body)
    (·.RepeatsInside [] tree.body) :=
  checks_body (checks_statementsFragments tree.text [] 0 tree.body)

/-- All bodies of an extracted source give each name once. -/
theorem distinctInside_of_ofTree (hr : ofTree tree = .ok r) : DistinctInside tree.body := by
  have hchecks := checks_ofTree tree
  rwa [hr] at hchecks

/-- A source that is not extracted has a body that repeats a name. -/
theorem repeatsInside_of_ofTree {fault : ExtractionFault} (h : ofTree tree = .error fault) :
    fault.RepeatsInside [] tree.body := by
  have hchecks := checks_ofTree tree
  rwa [h] at hchecks

/-- A source is extracted just if all of its bodies give each name once. -/
theorem exists_ofTree_iff : (∃ r, ofTree tree = .ok r) ↔ DistinctInside tree.body := by
  constructor
  · rintro ⟨r, hr⟩
    exact distinctInside_of_ofTree hr
  · intro h
    cases hresult : ofTree tree with
    | ok r => exact ⟨r, rfl⟩
    | error fault =>
        obtain ⟨path, inner, hinner, hfault⟩ := repeatsInside_of_ofTree hresult
        exact absurd (h path inner hinner.hasBodyAt) hfault.not_distinct

/-- The fragments of a resource are those of the declarations in its source. -/
theorem fragment?_eq_some_iff (hproper : NamesProperly tree.body) (hr : ofTree tree = .ok r)
    {f : Fragment} : r.fragment? path = some f ↔ ∃ depth form d,
      DeclaredAt tree.body path depth form d ∧ f = .ofDeclaration tree.text path form d := by
  obtain ⟨-, -, htraversal⟩ := traversal_ofTree hr
  have hlisted : ∀ f, r.fragment? path = some f → ∃ depth form d,
      DeclaredAt tree.body path depth form d ∧ f = .ofDeclaration tree.text path form d := by
    intro f hf
    obtain rfl : f.path = path := by simpa using List.find?_some hf
    obtain ⟨d, hd, hfd⟩ := htraversal.declaredAt_of_mem (List.mem_of_find?_eq_some hf)
    exact ⟨_, _, d, hd, hfd⟩
  refine ⟨hlisted f, ?_⟩
  rintro ⟨depth, form, d, hd, rfl⟩
  obtain ⟨c, hc, hleads⟩ := declaredAt_iff.1 hd
  have hmem := htraversal.mem_of_leads hc hleads
  obtain ⟨f, hf⟩ : ∃ f, r.fragment? path = some f :=
    Option.isSome_iff_exists.1 (List.find?_isSome.2 ⟨_, hmem, beq_self_eq_true _⟩)
  -- another fragment at this path would be that of another declaration
  obtain ⟨depth', form', d', hd', rfl⟩ := hlisted f hf
  obtain ⟨rfl, rfl⟩ := hd.unique hproper
    (fun path inner h => (distinctInside_of_ofTree hr path inner h).modules) hd'
  exact hf

/-- The bodies of a resource are those of the statements in its source. -/
theorem body?_eq_some_iff (hproper : NamesProperly tree.body) (hr : ofTree tree = .ok r) :
    r.body? path = some b ↔
      ∃ inner, HasBodyAt tree.body path inner ∧ b = .ofStatements tree.text path inner := by
  by_cases hpath : path = []
  · obtain ⟨-, hroot, -⟩ := traversal_ofTree hr
    subst hpath
    rw [body?, List.isEmpty_nil, if_pos rfl, hroot]
    constructor
    · intro hb
      exact ⟨tree.body, .here, (Option.some.inj hb).symm⟩
    · rintro ⟨inner, hinner, rfl⟩
      cases hinner
      rfl
  · rw [body?, if_neg (by simpa using hpath), Option.map_eq_some_iff]
    constructor
    · rintro ⟨f, hf, rfl⟩
      obtain ⟨depth, form, d, hd, rfl⟩ := (fragment?_eq_some_iff hproper hr).1 hf
      exact ⟨d.body, hd.hasBodyAt, rfl⟩
    · rintro ⟨inner, hinner, rfl⟩
      obtain ⟨depth, form, d, hd, rfl⟩ := hinner.exists_declaredAt hpath
      exact ⟨_, (fragment?_eq_some_iff hproper hr).2 ⟨depth, form, d, hd, rfl⟩, rfl⟩

/-- A source text is a resource if and only if each body in it gives each name once. Otherwise the
fault is about a name that a body gives more than once, and it describes no other body. -/
theorem ofTree_distinct (h : SyntaxTree.parse text = .ok tree) :
    ((∃ r, ofTree tree = .ok r) ↔
        ∀ path inner, HasBodyAt tree.body path inner → Distinct inner) ∧
      ∀ fault, ofTree tree = .error fault → ∃ path inner, HasBodyAt tree.body path inner ∧
        fault.Repeats path inner ∧ ∀ path' other, HasBodyAt tree.body path' other →
          path'.describe = path.describe → path' = path ∧ other = inner := by
  have hproper := NamesProperly.of_parse h
  refine ⟨exists_ofTree_iff, fun fault hfault => ?_⟩
  obtain ⟨path, inner, hinner, hrepeats⟩ := repeatsInside_of_ofTree hfault
  refine ⟨path, inner, hinner.hasBodyAt, hrepeats, fun path' other hother hdescribe => ?_⟩
  obtain rfl := FragmentPath.describe_injective (hother.isProper hproper)
    (hinner.hasBodyAt.isProper hproper) hdescribe
  exact ⟨rfl, hinner.eq_of_hasBodyAt hproper hother⟩

/-- A text whose inline module exports one name by a clause and by a declaration. -/
def repeatedText : List Char :=
  "module a \x7b f(module \x7b export \x7b x \x7d; export let x; \x7d); \x7d".toList

/-- The statements of the inline module in `repeatedText`. -/
def repeatedInner : List Statement :=
  [.exportNames [⟨"x", "x"⟩] none ⟨22, 35⟩, .exportDeclaration ["x"] (.mk ⟨43, 49⟩ []) ⟨36, 49⟩]

/-- The statements of `repeatedText`. -/
def repeatedBody : List Statement :=
  [.module (.mk (some "a") false .statement
    [.code (.mk ⟨11, 53⟩ [.mk none false .nested repeatedInner ⟨13, 51⟩ ⟨21, 50⟩])]
    ⟨0, 55⟩ ⟨10, 54⟩)]

/-- The statements of the text with a repeated name. -/
theorem parse_repeatedText : SyntaxTree.parse repeatedText = .ok ⟨repeatedText, repeatedBody⟩ := by
  have htokens : Token.ofChars repeatedText =
      [⟨.identifier "module", ⟨0, 6⟩, false⟩, ⟨.identifier "a", ⟨7, 8⟩, false⟩,
        ⟨.leftBrace, ⟨9, 10⟩, false⟩, ⟨.identifier "f", ⟨11, 12⟩, false⟩,
        ⟨.leftParen, ⟨12, 13⟩, false⟩, ⟨.identifier "module", ⟨13, 19⟩, false⟩,
        ⟨.leftBrace, ⟨20, 21⟩, false⟩, ⟨.keyword .«export», ⟨22, 28⟩, false⟩,
        ⟨.leftBrace, ⟨29, 30⟩, false⟩, ⟨.identifier "x", ⟨31, 32⟩, false⟩,
        ⟨.rightBrace, ⟨33, 34⟩, false⟩, ⟨.semicolon, ⟨34, 35⟩, false⟩,
        ⟨.keyword .«export», ⟨36, 42⟩, false⟩, ⟨.keyword .«let», ⟨43, 46⟩, false⟩,
        ⟨.identifier "x", ⟨47, 48⟩, false⟩, ⟨.semicolon, ⟨48, 49⟩, false⟩,
        ⟨.rightBrace, ⟨50, 51⟩, false⟩, ⟨.rightParen, ⟨51, 52⟩, false⟩,
        ⟨.semicolon, ⟨52, 53⟩, false⟩, ⟨.rightBrace, ⟨54, 55⟩, false⟩,
        ⟨.endOfInput, ⟨55, 55⟩, false⟩] := by
    decide +kernel
  exact SyntaxTree.parse_of_tokens htokens rfl

/-- The fault of the text is about the body of its inline module, the only one with this
description. -/
theorem ofTree_distinct_repeated :
    SyntaxTree.parse repeatedText = .ok ⟨repeatedText, repeatedBody⟩ ∧
      ofTree ⟨repeatedText, repeatedBody⟩ = .error (.duplicateExport "x" ["a", "%0"]) ∧
      HasBodyAt repeatedBody ["a", "%0"] repeatedInner ∧ ¬ Distinct repeatedInner ∧
      ∀ path' other, HasBodyAt repeatedBody path' other →
        path'.describe = "fragment a/%0" → path' = ["a", "%0"] ∧ other = repeatedInner := by
  have hfault : ofTree ⟨repeatedText, repeatedBody⟩ =
      .error (.duplicateExport "x" ["a", "%0"]) := by
    rfl
  have hinner : HasBodyAt repeatedBody ["a", "%0"] repeatedInner :=
    .inside (.named (List.mem_singleton_self _) rfl) (.inside (.inline (i := 0) rfl) .here)
  obtain ⟨path, inner, hpath, hrepeats, honly⟩ := (ofTree_distinct parse_repeatedText).2 _ hfault
  obtain ⟨rfl, rfl⟩ := honly _ _ hinner (by rw [← hrepeats.1])
  exact ⟨parse_repeatedText, hfault, hpath, hrepeats.not_distinct, honly⟩

end Resource

end ModuleGraph
