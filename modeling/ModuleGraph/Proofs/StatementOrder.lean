import ModuleGraph.Proofs.Printing
import ModuleGraph.Proofs.RequestedModules
import ModuleGraph.Proofs.ScopeResolution

/-!
# The order of statements

Imports, exports and module declarations count for their whole body, wherever they stand in it. If
the statements of one body are put in another order, a source text is a resource with the new order
if and only if it is one with the old order, and all its bodies declare the same
(`Resource.ofTree_rearranged`). Two things do depend on the order: which of several imports binds a
name, and the numbers of inline modules. So imports must bind different names, and the statements
with inline modules keep their order.
-/

namespace ModuleGraph

/-! ## Other orders of statements -/

/-- A module declaration with other statements between its braces. -/
def ModuleDeclaration.withBody : ModuleDeclaration → List Statement → ModuleDeclaration
  | .mk name exported placement _ span bodySpan, body =>
    .mk name exported placement body span bodySpan

/-- Two statements that differ in one of their modules. -/
inductive Statement.Replaces (d d' : ModuleDeclaration) : Statement → Statement → Prop where
  | module : Replaces d d' (.module d) (.module d')
  | code (span : Span) (left right : List ModuleDeclaration) :
      Replaces d d' (.code (.mk span (left ++ d :: right)))
        (.code (.mk span (left ++ d' :: right)))
  | exportDeclaration (names : List String) (span outer : Span)
      (left right : List ModuleDeclaration) :
      Replaces d d' (.exportDeclaration names (.mk span (left ++ d :: right)) outer)
        (.exportDeclaration names (.mk span (left ++ d' :: right)) outer)
  | exportDefault (localName : String) (span outer : Span) (left right : List ModuleDeclaration) :
      Replaces d d' (.exportDefault localName (.mk span (left ++ d :: right)) outer)
        (.exportDefault localName (.mk span (left ++ d' :: right)) outer)

/-- Whether a statement contains inline modules. -/
def Statement.hasInlineModules (st : Statement) : Bool :=
  !st.inlineModules.isEmpty

/-- The local names that the imports of statements bind. -/
def importedNames (statements : List Statement) : List String :=
  (statements.flatMap Statement.imports).map ImportEntry.localName

/-- The statements of one body, the outer one or one inside of it, are in another order. Those with
inline modules keep their order, and no two imports of this body bind the same name. -/
inductive Rearranges : List Statement → List Statement → Prop where
  | here {body body' : List Statement} (hperm : body.Perm body')
      (hinline : body.filter Statement.hasInlineModules = body'.filter Statement.hasInlineModules)
      (himports : (importedNames body).Nodup) : Rearranges body body'
  | inside {before after inner : List Statement} {st st' : Statement} {d : ModuleDeclaration}
      (h : Rearranges d.body inner) (hst : st.Replaces d (d.withBody inner) st') :
      Rearranges (before ++ st :: after) (before ++ st' :: after)

/-- One tree has the statements of the other one with the statements of one body in another order.
The texts of the trees and the places in them may be different. -/
def SyntaxTree.Rearranges (tree tree' : SyntaxTree) : Prop :=
  ∃ body, ModuleGraph.Rearranges tree.body body ∧
    body.map Statement.bare = tree'.body.map Statement.bare

/-- Bodies with the same entries, in any order. -/
structure Body.SameEntries (b b' : Body) : Prop where
  requests : b.requests.Perm b'.requests
  imports : b.imports.Perm b'.imports
  localExports : b.localExports.Perm b'.localExports
  indirectExports : b.indirectExports.Perm b'.indirectExports
  starExports : b.starExports.Perm b'.starExports
  scope : b.scope.Perm b'.scope
  found : ∀ name, b.scope.find? name = b'.scope.find? name

/-! ## What statements declare -/

/-- What a statement adds to its body, apart from code. -/
structure Contribution where
  fragmentName? : Option String
  request? : Option Specifier
  imports : List ImportEntry
  localExports : List LocalExport
  indirectExports : List IndirectExport
  starExport? : Option Specifier
  moduleNames : List (Option String)

/-- What a statement adds to its body. -/
def Statement.contribution (st : Statement) : Contribution where
  fragmentName? := st.fragmentName?
  request? := st.request?
  imports := st.imports
  localExports := st.localExports
  indirectExports := st.indirectExports
  starExport? := st.starExport?
  moduleNames := st.modules.map ModuleDeclaration.name

/-- Statements add the same to their bodies, in any order, and the same imports bind their names. -/
structure DeclareSame (statements statements' : List Statement) : Prop where
  contributions : (statements.map Statement.contribution).Perm
    (statements'.map Statement.contribution)
  reexports : Body.reexport? (statements.flatMap Statement.imports) =
    Body.reexport? (statements'.flatMap Statement.imports)

namespace DeclareSame

variable {sts sts' sts'' : List Statement}

/-- Statements with the same contributions declare the same. -/
theorem of_eq (h : sts.map Statement.contribution = sts'.map Statement.contribution) :
    DeclareSame sts sts' := by
  have himports : sts.flatMap Statement.imports = sts'.flatMap Statement.imports := by
    have hflat := congrArg (List.flatMap Contribution.imports) h
    rwa [List.flatMap_map, List.flatMap_map] at hflat
  exact ⟨h ▸ .refl _, congrArg Body.reexport? himports⟩

/-- Statements declare what they declare. -/
theorem refl (sts : List Statement) : DeclareSame sts sts :=
  of_eq rfl

/-- Declaring the same is symmetric. -/
theorem symm (h : DeclareSame sts sts') : DeclareSame sts' sts :=
  ⟨h.contributions.symm, h.reexports.symm⟩

/-- Declaring the same is transitive. -/
theorem trans (h : DeclareSame sts sts') (h' : DeclareSame sts' sts'') : DeclareSame sts sts'' :=
  ⟨h.contributions.trans h'.contributions, h.reexports.trans h'.reexports⟩

/-- What is picked from contributions is the same, in another order. -/
theorem filterMap {α : Type} (h : DeclareSame sts sts') (f : Contribution → Option α) :
    (sts.filterMap fun st => f st.contribution).Perm
      (sts'.filterMap fun st => f st.contribution) := by
  have hperm := h.contributions.filterMap f
  rwa [List.filterMap_map, List.filterMap_map] at hperm

/-- What is listed of contributions is the same, in another order. -/
theorem flatMap {α : Type} (h : DeclareSame sts sts') (f : Contribution → List α) :
    (sts.flatMap fun st => f st.contribution).Perm
      (sts'.flatMap fun st => f st.contribution) := by
  have hperm := h.contributions.flatMap_right f
  rwa [List.flatMap_map, List.flatMap_map] at hperm

/-- Statements that declare the same have modules of the same names. -/
theorem moduleNames (h : DeclareSame sts sts') :
    ((sts.flatMap Statement.modules).map ModuleDeclaration.name).Perm
      ((sts'.flatMap Statement.modules).map ModuleDeclaration.name) := by
  rw [List.map_flatMap, List.map_flatMap]
  exact h.flatMap (·.moduleNames)

/-- Statements that declare the same give each name once if the others do. -/
theorem distinct (h : DeclareSame sts sts') (hdistinct : Distinct sts) : Distinct sts' := by
  refine ⟨(h.filterMap (·.fragmentName?)).nodup_iff.1 hdistinct.modules, ?_⟩
  have hexports := ((h.flatMap (·.localExports)).map LocalExport.exportName).append
    ((h.flatMap (·.indirectExports)).map IndirectExport.exportName)
  exact ((perm_exportedNames sts).symm.trans (hexports.trans (perm_exportedNames sts'))).nodup_iff.1
    hdistinct.exports

/-- Bodies of statements that declare the same have the same entries. -/
theorem sameEntries (h : DeclareSame sts sts') (text text' : List Char) (path : FragmentPath) :
    (Body.ofStatements text path sts).SameEntries (.ofStatements text' path sts') := by
  have hexports := h.flatMap (·.localExports)
  have hnames := h.filterMap (·.fragmentName?)
  refine ⟨?_, h.flatMap (·.imports), ?_, ?_, h.filterMap (·.starExport?), hnames.map _,
    fun name => ?_⟩
  · refine (List.perm_ext_iff_of_nodup (nodup_firstOccurrences _) (nodup_firstOccurrences _)).2 ?_
    intro request
    rw [mem_firstOccurrences, mem_firstOccurrences]
    exact (h.filterMap (·.request?)).mem_iff
  · unfold Body.ofStatements
    dsimp only
    rw [h.reexports]
    exact hexports.filter _
  · unfold Body.ofStatements
    dsimp only
    rw [h.reexports]
    exact (h.flatMap (·.indirectExports)).append (hexports.filterMap _)
  · unfold Body.ofStatements
    dsimp only
    have hmem : name ∈ sts.filterMap Statement.fragmentName? ↔
        name ∈ sts'.filterMap Statement.fragmentName? := hnames.mem_iff
    rw [Scope.find?_children, Scope.find?_children]
    simp only [hmem]

end DeclareSame

/-! ## Imports of different names -/

/-- Where imports bind different names, each is found by its name. -/
theorem find?_localName_eq_some_iff {imports : List ImportEntry}
    (h : (imports.map ImportEntry.localName).Nodup) {name : String} {i : ImportEntry} :
    imports.reverse.find? (·.localName == name) = some i ↔ i ∈ imports ∧ i.localName = name := by
  have hreverse : (imports.reverse.map ImportEntry.localName).Nodup := by
    rwa [List.map_reverse, List.nodup_reverse]
  rw [find?_key_eq_some_iff hreverse, List.mem_reverse]

/-- Statements in another order declare the same if their imports bind different names. -/
theorem DeclareSame.of_perm {body body' : List Statement} (hperm : body.Perm body')
    (himports : (importedNames body).Nodup) : DeclareSame body body' := by
  have hentries := hperm.flatMap_right Statement.imports
  have himports' : (importedNames body').Nodup :=
    (hentries.map ImportEntry.localName).nodup_iff.1 himports
  refine ⟨hperm.map _, funext fun e => congrArg (Option.map _) (Option.ext fun i => ?_)⟩
  rw [find?_localName_eq_some_iff himports, find?_localName_eq_some_iff himports',
    hentries.mem_iff]

/-- An export of an imported name is an export of what is imported, and not of a local binding. -/
theorem Body.reexport_of_import {text : List Char} {path : FragmentPath}
    {statements : List Statement} (himports : (importedNames statements).Nodup) {i : ImportEntry}
    (hi : i ∈ statements.flatMap Statement.imports) {e : LocalExport}
    (he : e ∈ statements.flatMap Statement.localExports) (hname : e.localName = i.localName) :
    ⟨e.exportName, i.request, i.importName⟩ ∈
        (Body.ofStatements text path statements).indirectExports ∧
      e ∉ (Body.ofStatements text path statements).localExports := by
  have hreexport : Body.reexport? (statements.flatMap Statement.imports) e =
      some ⟨e.exportName, i.request, i.importName⟩ := by
    rw [Body.reexport?, (find?_localName_eq_some_iff himports).2 ⟨hi, hname.symm⟩]
    rfl
  refine ⟨List.mem_append_right _ (List.mem_filterMap.2 ⟨e, he, hreexport⟩), fun hlocal => ?_⟩
  have hnone := (List.mem_filter.1 hlocal).2
  rw [hreexport] at hnone
  cases hnone

/-! ## Bodies in their places -/

/-- Each body inside of a body has a counterpart at the same path inside of another one. -/
def Mirrored (body body' : List Statement) : Prop :=
  ∀ path inner, HasBodyAt body path inner →
    ∃ inner', HasBodyAt body' path inner' ∧ DeclareSame inner inner'

section Mirrored

variable {body body' : List Statement} {d d' : ModuleDeclaration}

/-- A body is its own counterpart. -/
theorem Mirrored.refl (body : List Statement) : Mirrored body body :=
  fun _ inner h => ⟨inner, h, .refl inner⟩

/-- The counterpart of a counterpart is one. -/
theorem Mirrored.trans {body'' : List Statement} (h : Mirrored body body')
    (h' : Mirrored body' body'') : Mirrored body body'' := by
  intro path inner hinner
  obtain ⟨inner', hinner', hsame⟩ := h path inner hinner
  obtain ⟨inner'', hinner'', hsame'⟩ := h' path inner' hinner'
  exact ⟨inner'', hinner'', hsame.trans hsame'⟩

/-- Bodies mirror each other if they declare the same and their modules have mirrored bodies. -/
theorem Mirrored.of_members (hself : DeclareSame body body')
    (hmembers : ∀ segment form d, Member body segment form d →
      ∃ d', Member body' segment form d' ∧ Mirrored d.body d'.body) : Mirrored body body' := by
  intro path inner hinner
  cases hinner with
  | here => exact ⟨body', .here, hself⟩
  | inside h hinner =>
      obtain ⟨d', h', hd⟩ := hmembers _ _ _ h
      obtain ⟨inner', hinner', hsame⟩ := hd _ _ hinner
      exact ⟨inner', .inside h' hinner', hsame⟩

/-- Counterparts of bodies that give each name once do so. -/
theorem Mirrored.distinctInside (h : Mirrored body' body) (hdistinct : DistinctInside body) :
    DistinctInside body' := by
  intro path inner' hinner'
  obtain ⟨inner, hinner, hsame⟩ := h path inner' hinner'
  exact hsame.symm.distinct (hdistinct path inner hinner)

/-- Counterparts of bodies with proper names have proper names. -/
theorem Mirrored.namesProperly (h : Mirrored body' body) (hproper : NamesProperly body) :
    NamesProperly body' := by
  intro d' name hd' hname
  obtain ⟨path, inner', hinner', hmem⟩ := hd'.exists_hasBodyAt
  obtain ⟨inner, hinner, hsame⟩ := h path inner' hinner'
  have hname' := hsame.moduleNames.mem_iff.1 (List.mem_map_of_mem hmem)
  rw [hname] at hname'
  obtain ⟨d, hd, hname⟩ := List.mem_map.1 hname'
  exact hproper d name (hinner.declares hd) hname

end Mirrored

/-! ## Modules in their places -/

section Members

variable {body body' : List Statement} {segment : String} {form : FragmentForm}
  {d d' e : ModuleDeclaration}

/-- Lists that correspond have related members at the same positions. -/
theorem exists_getElem?_of_forall₂ {α β : Type} {R : α → β → Prop} {as : List α} {bs : List β}
    (h : List.Forall₂ R as bs) {i : Nat} {a : α} (ha : as[i]? = some a) :
    ∃ b, bs[i]? = some b ∧ R a b := by
  induction h generalizing i with
  | nil => cases ha
  | @cons a' b' as bs hab _ ih =>
      cases i with
      | zero =>
          cases ha
          exact ⟨b', rfl, hab⟩
      | succ i => exact ih ha

/-- A module keeps its segment if the names of modules are kept and the inline modules stand in one
order. -/
theorem Member.exists_of_forall₂ {R : ModuleDeclaration → ModuleDeclaration → Prop}
    (hnamed : ∀ d, .module d ∈ body → ∃ d', .module d' ∈ body' ∧ d'.name = d.name ∧ R d d')
    (hinline : List.Forall₂ R (body.flatMap Statement.inlineModules)
      (body'.flatMap Statement.inlineModules)) (h : Member body segment form d) :
    ∃ d', Member body' segment form d' ∧ R d d' := by
  cases h with
  | named hd hname =>
      obtain ⟨d', hd', hname', hrelated⟩ := hnamed _ hd
      exact ⟨d', .named hd' (hname'.trans hname), hrelated⟩
  | inline hd =>
      obtain ⟨d', hd', hrelated⟩ := exists_getElem?_of_forall₂ hinline hd
      exact ⟨d', .inline hd', hrelated⟩

/-- All inline modules of a body are in statements that have some. -/
theorem flatMap_inlineModules_filter (body : List Statement) :
    (body.filter Statement.hasInlineModules).flatMap Statement.inlineModules =
      body.flatMap Statement.inlineModules := by
  induction body with
  | nil => rfl
  | cons st body ih =>
      rw [List.filter_cons, List.flatMap_cons, ← ih]
      split
      · rfl
      · next hnone =>
          have hnil : st.inlineModules = [] := by simpa [Statement.hasInlineModules] using hnone
          rw [hnil, List.nil_append]

/-- Statements in another order have the same bodies inside if those with inline modules keep
theirs. -/
theorem Mirrored.of_perm (hperm : body.Perm body')
    (hinline : body.filter Statement.hasInlineModules = body'.filter Statement.hasInlineModules)
    (himports : (importedNames body).Nodup) : Mirrored body body' := by
  refine .of_members (.of_perm hperm himports) fun segment form d hd => ?_
  have hsame : body.flatMap Statement.inlineModules = body'.flatMap Statement.inlineModules := by
    rw [← flatMap_inlineModules_filter, hinline, flatMap_inlineModules_filter]
  obtain ⟨d', hd', rfl⟩ := hd.exists_of_forall₂ (R := Eq)
    (fun d hd => ⟨d, hperm.subset hd, rfl, rfl⟩) (List.forall₂_eq_eq_eq ▸ hsame)
  exact ⟨d, hd', .refl _⟩

/-! ### One module in the place of another -/

/-- A module is kept, or it is the one that has been replaced. -/
def KeptOrReplaced (d d' e e' : ModuleDeclaration) : Prop :=
  e' = e ∨ e = d ∧ e' = d'

/-- Modules that are kept are kept or replaced. -/
theorem forall₂_kept (ds : List ModuleDeclaration) : List.Forall₂ (KeptOrReplaced d d') ds ds :=
  List.forall₂_same.2 fun _ _ => .inl rfl

/-- A module is replaced among others that are kept. -/
theorem forall₂_replaced (left right : List ModuleDeclaration) :
    List.Forall₂ (KeptOrReplaced d d') (left ++ d :: right) (left ++ d' :: right) :=
  List.rel_append (forall₂_kept left) (.cons (.inr ⟨rfl, rfl⟩) (forall₂_kept right))

namespace Statement.Replaces

variable {before after : List Statement} {st st' : Statement}

/-- A statement contributes the same when one of its modules is replaced by one of the same name. -/
theorem contribution_eq (h : st.Replaces d d' st') (hname : d'.name = d.name) :
    st.contribution = st'.contribution := by
  cases h <;>
    simp [contribution, fragmentName?, request?, imports, localExports, indirectExports,
      starExport?, modules, Code.inlineModules, hname]

/-- The inline modules of a statement are kept but for the one that is replaced. -/
theorem forall₂_inlineModules (h : st.Replaces d d' st') (hname : d'.name = d.name) :
    List.Forall₂ (KeptOrReplaced d d') st.inlineModules st'.inlineModules := by
  cases h with
  | module =>
      simp only [inlineModules, hname]
      split
      · exact forall₂_replaced [] []
      · exact .nil
  | code | exportDeclaration | exportDefault => exact forall₂_replaced _ _

/-- A module among statements is kept, or has the one that replaces it as its counterpart. -/
theorem exists_module (h : st.Replaces d d' st') (hname : d'.name = d.name)
    (he : .module e ∈ before ++ st :: after) : ∃ e', .module e' ∈ before ++ st' :: after ∧
      e'.name = e.name ∧ KeptOrReplaced d d' e e' := by
  rw [List.mem_append, List.mem_cons] at he
  obtain he | rfl | he := he
  · exact ⟨e, List.mem_append_left _ he, rfl, .inl rfl⟩
  · cases h with
    | module =>
        exact ⟨d', List.mem_append_right _ (List.mem_cons_self ..), hname, .inr ⟨rfl, rfl⟩⟩
  · exact ⟨e, List.mem_append_right _ (List.mem_cons_of_mem _ he), rfl, .inl rfl⟩

/-- A body mirrors one in which a module has a body that mirrors its own. -/
theorem mirrored (h : st.Replaces d d' st') (hname : d'.name = d.name)
    (hbody : Mirrored d.body d'.body) :
    Mirrored (before ++ st :: after) (before ++ st' :: after) := by
  have hsame : (before ++ st :: after).map contribution =
      (before ++ st' :: after).map contribution := by
    rw [List.map_append, List.map_append, List.map_cons, List.map_cons, h.contribution_eq hname]
  have hinline : List.Forall₂ (KeptOrReplaced d d')
      ((before ++ st :: after).flatMap inlineModules)
      ((before ++ st' :: after).flatMap inlineModules) := by
    rw [List.flatMap_append, List.flatMap_append, List.flatMap_cons, List.flatMap_cons]
    exact List.rel_append (forall₂_kept _)
      (List.rel_append (h.forall₂_inlineModules hname) (forall₂_kept _))
  refine .of_members (.of_eq hsame) fun segment form e he => ?_
  obtain ⟨e', he', rfl | ⟨rfl, rfl⟩⟩ :=
    he.exists_of_forall₂ (fun e he => h.exists_module hname he) hinline
  · exact ⟨_, he', .refl _⟩
  · exact ⟨_, he', hbody⟩

end Statement.Replaces

/-! ### Statements without their places -/

/-- Declarations lose their places one by one. -/
theorem ModuleDeclaration.bareAll_eq (ds : List ModuleDeclaration) : bareAll ds = ds.map bare := by
  induction ds with
  | nil => rfl
  | cons d ds ih => rw [bareAll, ih, List.map_cons]

/-- A declaration without its places has its name. -/
theorem ModuleDeclaration.name_bare (d : ModuleDeclaration) : d.bare.name = d.name := by
  cases d
  rfl

/-- A declaration without its places has its statements without theirs. -/
theorem ModuleDeclaration.body_bare (d : ModuleDeclaration) :
    d.bare.body = d.body.map Statement.bare := by
  cases d
  exact Statement.bareAll_eq _

namespace Statement

/-- A statement without its places has its modules without theirs. -/
theorem modules_bare (st : Statement) :
    st.bare.modules = st.modules.map ModuleDeclaration.bare := by
  cases st with
  | module d => rfl
  | code c | exportDeclaration _ c _ | exportDefault _ c _ =>
      cases c
      exact ModuleDeclaration.bareAll_eq _
  | _ => rfl

/-- A statement without its places declares the module that it declares. -/
theorem fragmentName?_bare (st : Statement) : st.bare.fragmentName? = st.fragmentName? := by
  cases st with
  | module d => exact d.name_bare
  | _ => rfl

/-- The inline modules of a statement are all of its modules, unless it declares one by name. -/
theorem inlineModules_eq (st : Statement) :
    st.inlineModules = if st.fragmentName?.isSome then [] else st.modules := by
  cases st with
  | module d => cases hname : d.name <;> simp [inlineModules, fragmentName?, modules, hname]
  | _ => rfl

/-- A statement without its places has its inline modules without theirs. -/
theorem inlineModules_bare (st : Statement) :
    st.bare.inlineModules = st.inlineModules.map ModuleDeclaration.bare := by
  rw [inlineModules_eq, inlineModules_eq, fragmentName?_bare, modules_bare]
  split <;> rfl

/-- A statement contributes the same without its places. -/
theorem contribution_bare (st : Statement) : st.bare.contribution = st.contribution := by
  have hnames : st.bare.modules.map ModuleDeclaration.name =
      st.modules.map ModuleDeclaration.name := by
    rw [modules_bare, List.map_map]
    exact List.map_congr_left fun d _ => d.name_bare
  unfold contribution
  rw [hnames, fragmentName?_bare]
  cases st with
  | exportNames _ source _ => cases source <;> rfl
  | exportAll _ name _ => cases name <;> rfl
  | _ => rfl

end Statement

/-- Statements that differ in their places only declare the same. -/
theorem DeclareSame.of_bare (h : body.map Statement.bare = body'.map Statement.bare) :
    DeclareSame body body' := by
  have hcontributions : ∀ sts : List Statement, (sts.map Statement.bare).map
      Statement.contribution = sts.map Statement.contribution := by
    intro sts
    rw [List.map_map]
    exact List.map_congr_left fun st _ => st.contribution_bare
  exact .of_eq (by rw [← hcontributions, h, hcontributions])

/-- Bodies that differ in their places only have the same modules. -/
theorem Member.exists_of_bare (hbare : body.map Statement.bare = body'.map Statement.bare)
    (h : Member body segment form d) : ∃ d', Member body' segment form d' ∧ d.bare = d'.bare := by
  have hnamed : ∀ d, .module d ∈ body →
      ∃ d', .module d' ∈ body' ∧ d'.name = d.name ∧ d.bare = d'.bare := by
    intro d hd
    have hmem := List.mem_map_of_mem (f := Statement.bare) hd
    rw [hbare] at hmem
    obtain ⟨st, hst, heq⟩ := List.mem_map.1 hmem
    cases st with
    | module d' =>
        have hsame : d'.bare = d.bare := Statement.module.inj heq
        exact ⟨d', hst, by rw [← d'.name_bare, hsame, d.name_bare], hsame.symm⟩
    | _ => cases heq
  have hinline : ∀ sts : List Statement, (sts.flatMap Statement.inlineModules).map
      ModuleDeclaration.bare = (sts.map Statement.bare).flatMap Statement.inlineModules := by
    intro sts
    rw [List.map_flatMap, List.flatMap_map]
    exact congrArg (List.flatMap · sts) (funext fun st => st.inlineModules_bare.symm)
  have hsame : (body.flatMap Statement.inlineModules).map ModuleDeclaration.bare =
      (body'.flatMap Statement.inlineModules).map ModuleDeclaration.bare := by
    rw [hinline, hinline, hbare]
  rw [← List.forall₂_eq_eq_eq, List.forall₂_map_left_iff, List.forall₂_map_right_iff] at hsame
  exact h.exists_of_forall₂ hnamed hsame

/-- Bodies that differ in their places only have the same bodies inside. -/
theorem Mirrored.of_bare (h : body.map Statement.bare = body'.map Statement.bare) :
    Mirrored body body' := by
  suffices hsame : ∀ path inner, HasBodyAt body path inner → ∃ inner',
      HasBodyAt body' path inner' ∧ inner.map Statement.bare = inner'.map Statement.bare by
    intro path inner hinner
    obtain ⟨inner', hinner', hbare⟩ := hsame path inner hinner
    exact ⟨inner', hinner', .of_bare hbare⟩
  intro path inner hinner
  induction hinner generalizing body' with
  | here => exact ⟨body', .here, h⟩
  | inside hd _ ih =>
      -- the module at the same segment has the same statements, without their places
      obtain ⟨d', hd', hbare⟩ := hd.exists_of_bare h
      have hbody := congrArg ModuleDeclaration.body hbare
      rw [ModuleDeclaration.body_bare, ModuleDeclaration.body_bare] at hbody
      obtain ⟨inner', hinner', hsame⟩ := ih hbody
      exact ⟨inner', .inside hd' hinner', hsame⟩

end Members

/-! ## Rearranged trees -/

namespace ModuleDeclaration

/-- A declaration keeps its name with another body. -/
theorem name_withBody (d : ModuleDeclaration) (body : List Statement) :
    (d.withBody body).name = d.name := by
  cases d
  rfl

/-- A declaration has the body that it is given. -/
theorem body_withBody (d : ModuleDeclaration) (body : List Statement) :
    (d.withBody body).body = body := by
  cases d
  rfl

/-- A declaration that is given its own body again is what it was. -/
theorem withBody_withBody (d : ModuleDeclaration) (body : List Statement) :
    (d.withBody body).withBody d.body = d := by
  cases d
  rfl

end ModuleDeclaration

section Rearranged

variable {body body' : List Statement} {d d' : ModuleDeclaration}

/-- Replacing one module by another can be undone. -/
theorem Statement.Replaces.symm {st st' : Statement} (h : st.Replaces d d' st') :
    st'.Replaces d' d st := by
  cases h with
  | module => exact .module
  | code => exact .code ..
  | exportDeclaration => exact .exportDeclaration ..
  | exportDefault => exact .exportDefault ..

/-- Rearranging statements can be undone. -/
theorem Rearranges.symm (h : Rearranges body body') : Rearranges body' body := by
  induction h with
  | here hperm hinline himports =>
      have hnames := (hperm.flatMap_right Statement.imports).map ImportEntry.localName
      exact .here hperm.symm hinline.symm (hnames.nodup_iff.1 himports)
  | @inside before after inner st st' d _ hst ih =>
      -- the old body is put back in the place of the new one
      have hback : st'.Replaces (d.withBody inner) ((d.withBody inner).withBody d.body) st := by
        rw [d.withBody_withBody]
        exact hst.symm
      refine .inside ?_ hback
      rwa [d.body_withBody]

/-- Rearranged statements have the same bodies inside. -/
theorem Rearranges.mirrored (h : Rearranges body body') : Mirrored body body' := by
  induction h with
  | here hperm hinline himports => exact .of_perm hperm hinline himports
  | @inside before after inner st st' d _ hst ih =>
      refine hst.mirrored (d.name_withBody inner) ?_
      rwa [d.body_withBody]

/-- Rearranged trees have the same bodies inside. -/
theorem SyntaxTree.Rearranges.mirrored {tree tree' : SyntaxTree} (h : tree.Rearranges tree') :
    Mirrored tree.body tree'.body ∧ Mirrored tree'.body tree.body := by
  obtain ⟨moved, hmoved, hbare⟩ := h
  exact ⟨hmoved.mirrored.trans (.of_bare hbare), .trans (.of_bare hbare.symm) hmoved.symm.mirrored⟩

end Rearranged

namespace Resource

variable {text : List Char} {tree tree' : SyntaxTree}

/-- Import and export declarations count for their whole body. If the statements of a body are put
in another order, both trees are resources or none is, and their bodies have the same entries. An
export of an imported name is one of what is imported, wherever the import stands. -/
theorem ofTree_rearranged (h : SyntaxTree.parse text = .ok tree) (hmoved : tree.Rearranges tree') :
    ((∃ r, ofTree tree = .ok r) ↔ ∃ r', ofTree tree' = .ok r') ∧
      ∀ r r', ofTree tree = .ok r → ofTree tree' = .ok r' →
        ∀ path statements, HasBodyAt tree.body path statements →
          ∃ b b', r.body? path = some b ∧ r'.body? path = some b' ∧ b.SameEntries b' ∧
            ((importedNames statements).Nodup →
              ∀ i ∈ statements.flatMap Statement.imports,
                ∀ e ∈ statements.flatMap Statement.localExports, e.localName = i.localName →
                  ⟨e.exportName, i.request, i.importName⟩ ∈ b.indirectExports ∧
                    e ∉ b.localExports) := by
  obtain ⟨hthere, hback⟩ := hmoved.mirrored
  have hproper := NamesProperly.of_parse h
  refine ⟨?_, fun r r' hr hr' path statements hbody => ?_⟩
  · rw [exists_ofTree_iff, exists_ofTree_iff]
    exact ⟨hback.distinctInside, hthere.distinctInside⟩
  · obtain ⟨statements', hbody', hsame⟩ := hthere path statements hbody
    refine ⟨_, _, (body?_eq_some_iff hproper hr).2 ⟨statements, hbody, rfl⟩,
      (body?_eq_some_iff (hback.namesProperly hproper) hr').2 ⟨statements', hbody', rfl⟩,
      hsame.sameEntries .., fun himports i hi e he hname => ?_⟩
    exact Body.reexport_of_import himports hi he hname

/-- The export of `x`, at some place. -/
def exportX (span : Span) : Statement :=
  .exportNames [⟨"x", "x"⟩] none span

/-- The import of `x` from `"m"`, at some place. -/
def importX (span : Span) : Statement :=
  .importFrom (.url "m") [.named "x" "x"] span

/-- A text in which a module exports `x` and then imports it, as a tree. -/
def exportFirst : SyntaxTree :=
  ⟨"module a \x7b export \x7b x \x7d; import \x7b x \x7d from \"m\"; \x7d".toList,
    [.module (.mk (some "a") false .statement [exportX ⟨11, 24⟩, importX ⟨25, 47⟩]
      ⟨0, 49⟩ ⟨10, 48⟩)]⟩

/-- The text with the import before the export, as a tree. -/
def importFirst : SyntaxTree :=
  ⟨"module a \x7b import \x7b x \x7d from \"m\"; export \x7b x \x7d; \x7d".toList,
    [.module (.mk (some "a") false .statement [importX ⟨11, 33⟩, exportX ⟨34, 47⟩]
      ⟨0, 49⟩ ⟨10, 48⟩)]⟩

/-- The tree of the text with the export first. -/
theorem parse_exportFirst : SyntaxTree.parse exportFirst.text = .ok exportFirst := by
  have htokens : Token.ofChars exportFirst.text =
      [⟨.identifier "module", ⟨0, 6⟩, false⟩, ⟨.identifier "a", ⟨7, 8⟩, false⟩,
        ⟨.leftBrace, ⟨9, 10⟩, false⟩, ⟨.keyword .«export», ⟨11, 17⟩, false⟩,
        ⟨.leftBrace, ⟨18, 19⟩, false⟩, ⟨.identifier "x", ⟨20, 21⟩, false⟩,
        ⟨.rightBrace, ⟨22, 23⟩, false⟩, ⟨.semicolon, ⟨23, 24⟩, false⟩,
        ⟨.keyword .«import», ⟨25, 31⟩, false⟩, ⟨.leftBrace, ⟨32, 33⟩, false⟩,
        ⟨.identifier "x", ⟨34, 35⟩, false⟩, ⟨.rightBrace, ⟨36, 37⟩, false⟩,
        ⟨.identifier "from", ⟨38, 42⟩, false⟩, ⟨.string "m", ⟨43, 46⟩, false⟩,
        ⟨.semicolon, ⟨46, 47⟩, false⟩, ⟨.rightBrace, ⟨48, 49⟩, false⟩,
        ⟨.endOfInput, ⟨49, 49⟩, false⟩] := by
    decide +kernel
  exact SyntaxTree.parse_of_tokens htokens rfl

/-- The tree of the text with the import first. -/
theorem parse_importFirst : SyntaxTree.parse importFirst.text = .ok importFirst := by
  have htokens : Token.ofChars importFirst.text =
      [⟨.identifier "module", ⟨0, 6⟩, false⟩, ⟨.identifier "a", ⟨7, 8⟩, false⟩,
        ⟨.leftBrace, ⟨9, 10⟩, false⟩, ⟨.keyword .«import», ⟨11, 17⟩, false⟩,
        ⟨.leftBrace, ⟨18, 19⟩, false⟩, ⟨.identifier "x", ⟨20, 21⟩, false⟩,
        ⟨.rightBrace, ⟨22, 23⟩, false⟩, ⟨.identifier "from", ⟨24, 28⟩, false⟩,
        ⟨.string "m", ⟨29, 32⟩, false⟩, ⟨.semicolon, ⟨32, 33⟩, false⟩,
        ⟨.keyword .«export», ⟨34, 40⟩, false⟩, ⟨.leftBrace, ⟨41, 42⟩, false⟩,
        ⟨.identifier "x", ⟨43, 44⟩, false⟩, ⟨.rightBrace, ⟨45, 46⟩, false⟩,
        ⟨.semicolon, ⟨46, 47⟩, false⟩, ⟨.rightBrace, ⟨48, 49⟩, false⟩,
        ⟨.endOfInput, ⟨49, 49⟩, false⟩] := by
    decide +kernel
  exact SyntaxTree.parse_of_tokens htokens rfl

/-- The two trees differ in the order of two statements. -/
theorem rearranges_exportFirst : exportFirst.Rearranges importFirst := by
  have hinner : Rearranges [exportX ⟨11, 24⟩, importX ⟨25, 47⟩]
      [importX ⟨25, 47⟩, exportX ⟨11, 24⟩] :=
    .here (.swap ..) rfl (by decide)
  exact ⟨_, @Rearranges.inside [] [] _ _ _ (.mk _ _ _ _ _ _) hinner .module, rfl⟩

/-- The module re-exports `x` in both texts. -/
theorem ofTree_rearranged_exportFirst :
    SyntaxTree.parse exportFirst.text = .ok exportFirst ∧
      SyntaxTree.parse importFirst.text = .ok importFirst ∧ exportFirst.Rearranges importFirst ∧
      ∃ r r' b b', ofTree exportFirst = .ok r ∧ ofTree importFirst = .ok r' ∧
        r.body? ["a"] = some b ∧ r'.body? ["a"] = some b' ∧ b.SameEntries b' ∧
        ⟨"x", .url "m", .name "x"⟩ ∈ b.indirectExports ∧
        ⟨"x", .url "m", .name "x"⟩ ∈ b'.indirectExports := by
  obtain ⟨hiff, hbodies⟩ := ofTree_rearranged parse_exportFirst rearranges_exportFirst
  obtain ⟨r, hr⟩ : ∃ r, ofTree exportFirst = .ok r := ⟨_, rfl⟩
  obtain ⟨r', hr'⟩ := hiff.1 ⟨r, hr⟩
  have hinner : HasBodyAt exportFirst.body ["a"] [exportX ⟨11, 24⟩, importX ⟨25, 47⟩] :=
    .inside (.named (List.mem_singleton_self _) rfl) .here
  obtain ⟨b, b', hb, hb', hsame, hreexports⟩ := hbodies r r' hr hr' _ _ hinner
  obtain ⟨hindirect, -⟩ := hreexports (by decide) ⟨.url "m", .name "x", "x"⟩ (by decide)
    ⟨"x", "x"⟩ (by decide) rfl
  exact ⟨parse_exportFirst, parse_importFirst, rearranges_exportFirst, r, r', b, b', hr, hr', hb,
    hb', hsame, hindirect, hsame.indirectExports.mem_iff.1 hindirect⟩

end Resource

end ModuleGraph
