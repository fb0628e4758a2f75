import ModuleGraph.Linking
import ModuleGraph.Proofs.Entries
import ModuleGraph.Proofs.Exports

/-!
# Which modules can be linked

`ModuleMap.Links` says what a module needs to be linked: exactly one target for each name that it
imports or exports again. `Linker.decides_link` says that linking its instance decides this, as long
as everything that the module depends on has an instance or will have one (`Linker.Covers`). If a
module cannot be linked, the fault is about one of its requests (`ModuleMap.Blames`).
-/

namespace ModuleGraph

/-! ## Dependence -/

namespace ModuleMap

variable {map : ModuleMap} {key target : ModuleKey} {view : LinkView} {node other : ExportNode}
  {t : ExportTarget} {request : Specifier}

/-- A module is another one or depends on it, over any number of steps. -/
def DependsOn (map : ModuleMap) : ModuleKey → ModuleKey → Prop :=
  Relation.ReflTransGen fun key d => d ∈ (map.entry key).dependencies

/-- What has a view is loaded, and the view is what its entry says. -/
theorem linkView?_eq_some_iff : map.linkView? key = some view ↔
    (map.entry key).progress.dependencies? = some view.dependencies ∧
      (map.entry key).body? = some view.body := by
  have hentry : map.linkView? key = (map.entry key).linkView? := by
    unfold linkView? entry
    cases map.get? key <;> rfl
  rw [hentry, Entry.linkView?]
  obtain ⟨body, dependencies⟩ := view
  cases (map.entry key).progress.dependencies? with
  | none => simp
  | some dependencies' =>
      cases (map.entry key).body? with
      | none => simp
      | some body' => simp [and_comm]

/-- What is seen of a module for linking are its dependencies. -/
theorem dependencies_of_linkView? (h : map.linkView? key = some view) :
    (map.entry key).dependencies = view.dependencies := by
  rw [Entry.dependencies, (linkView?_eq_some_iff.1 h).1, Option.getD_some]

/-- Only a loaded module can be seen for linking. -/
theorem isLoaded_of_linkView? (h : map.linkView? key = some view) :
    (map.entry key).isLoaded := by
  rw [Entry.isLoaded, (linkView?_eq_some_iff.1 h).1]
  rfl

end ModuleMap

/-- A module imports or exports again something by a request. -/
def LinkView.Asks (view : LinkView) (request : Specifier) : Prop :=
  (∃ i ∈ view.body.imports, i.request = request) ∨
    ∃ e ∈ view.body.indirectExports, e.request = request

/-- The target of a request is one of the dependencies. -/
theorem LinkView.mem_dependencies {view : LinkView} {request : Specifier} {target : ModuleKey}
    (h : view.dependency? request = some target) : target ∈ view.dependencies := by
  obtain ⟨i, -, hi⟩ := Option.bind_eq_some_iff.1 h
  exact List.mem_of_getElem? hi

namespace ModuleMap

variable {map : ModuleMap} {key target : ModuleKey} {view : LinkView} {node other : ExportNode}
  {t : ExportTarget} {request : Specifier}

/-- What a node of the graph of re-exports has to do with its module: a local leaf is an exported
local of the module, and everything else is at modules that it depends on. -/
theorem exportStep_spec (map : ModuleMap) (node : ExportNode) :
    match map.exportStep node with
    | .stop => True
    | .leaf (.binding key name) => key = node.1 ∧
        ∃ body, (map.entry key).body? = some body ∧ name ∈ body.exportedLocals
    | .leaf (.namespace d) | .rename d _ => d ∈ (map.entry node.1).dependencies
    | .stars ds => ds ⊆ (map.entry node.1).dependencies := by
  unfold exportStep
  cases hview : map.linkView? node.1 with
  | none => trivial
  | some view =>
      have hdependencies := dependencies_of_linkView? hview
      simp only [LinkView.exportStep]
      cases hlocal : view.localExport? node.2 with
      | some e =>
          refine ⟨rfl, view.body, (linkView?_eq_some_iff.1 hview).2, ?_⟩
          exact List.mem_map.2 ⟨e, List.mem_of_find?_eq_some hlocal, rfl⟩
      | none =>
          cases view.indirectExport? node.2 with
          | some e =>
              simp only
              cases hrequest : view.dependency? e.request with
              | none => trivial
              | some target =>
                  have htarget := hdependencies ▸ LinkView.mem_dependencies hrequest
                  cases e.importName <;> exact htarget
          | none =>
              by_cases hdefault : node.2 = "default"
              · simp [hdefault]
              · simp only [if_neg hdefault, hdependencies]
                intro d hd
                obtain ⟨request, -, hrequest⟩ := List.mem_filterMap.1 hd
                exact LinkView.mem_dependencies hrequest

/-- The graph of re-exports follows dependencies. -/
theorem mem_dependencies_of_edge (h : other ∈ map.exportEdges node) :
    other.1 ∈ (map.entry node.1).dependencies := by
  have hspec := map.exportStep_spec node
  unfold exportEdges at h
  cases hstep : map.exportStep node with
  | stop => simp [hstep] at h
  | leaf target => simp [hstep] at h
  | rename d name =>
      simp only [hstep, List.mem_singleton] at h hspec
      exact h ▸ hspec
  | stars ds =>
      simp only [hstep, List.mem_map] at h hspec
      obtain ⟨d, hd, rfl⟩ := h
      exact hspec hd

/-- Where an export leads to another module, the module depends on it. -/
theorem dependsOn_of_leads (h : map.Leads node other) : map.DependsOn node.1 other.1 := by
  induction h with
  | refl => exact .refl
  | tail _ hedge ih => exact ih.tail (mem_dependencies_of_edge hedge)

/-- The target of a name is at a module on which the module of the name depends, and is an exported
local there unless it is the namespace. -/
theorem Offers.spec (h : map.Offers node t) :
    match t with
    | .binding key name => map.DependsOn node.1 key ∧
        ∃ body, (map.entry key).body? = some body ∧ name ∈ body.exportedLocals
    | .namespace key => map.DependsOn node.1 key := by
  obtain ⟨leaf, hleads, hleaf⟩ := h
  have hdepends := dependsOn_of_leads hleads
  have hspec := map.exportStep_spec leaf
  unfold exportLeaf? at hleaf
  split at hleaf
  · next target hstep =>
      cases hleaf
      rw [hstep] at hspec
      cases t with
      | binding key name =>
          obtain ⟨rfl, hlocal⟩ := hspec
          exact ⟨hdepends, hlocal⟩
      | «namespace» key => exact hdepends.tail hspec
  · simp at hleaf

/-- An export name is resolved just if it has one single target. -/
theorem exists_resolveExport_iff {name : String} :
    (∃ t, map.resolveExport key name = .ok t) ↔ ∃! t, map.Offers (key, name) t := by
  simp only [resolveExport_eq_ok_iff]
  constructor
  · rintro ⟨t, ht⟩
    exact ⟨t, (ht t).2 rfl, fun t' ht' => (ht t').1 ht'⟩
  · rintro ⟨t, ht, hunique⟩
    exact ⟨t, fun t' => ⟨hunique t', fun hsame => hsame ▸ ht⟩⟩

/-- The resolved ones among some names are those that have a target, each with it. -/
theorem mem_resolved_iff {names : List String} {f : String × ExportTarget} :
    f ∈ names.filterMap (fun name =>
        (map.resolveExport key name).toOption.map fun target => (name, target)) ↔
      f.1 ∈ names ∧ map.resolveExport key f.1 = .ok f.2 := by
  obtain ⟨name, t⟩ := f
  simp only [List.mem_filterMap, Option.map_eq_some_iff, Prod.mk.injEq]
  constructor
  · rintro ⟨_, hname, t', ht, rfl, rfl⟩
    refine ⟨hname, ?_⟩
    cases hresolve : map.resolveExport key _ <;> simp_all [Except.toOption]
  · rintro ⟨hname, ht⟩
    exact ⟨name, hname, t, by rw [ht]; rfl, rfl, rfl⟩

/-! ## Requests -/

/-- A request of a module is for a module that it depends on, and if it is for a name, there is
exactly one target. -/
def Meets (map : ModuleMap) (view : LinkView) (request : Specifier) (importName : ImportName) :
    Prop :=
  ∃ target, view.dependency? request = some target ∧
    ∀ name, importName = .name name → ∃! t, map.Offers (target, name) t

/-- A module is loaded, and all its imports and its exports of other modules' names are met. -/
def Links (map : ModuleMap) (key : ModuleKey) : Prop :=
  ∃ view, map.linkView? key = some view ∧
    (∀ i ∈ view.body.imports, map.Meets view i.request i.importName) ∧
    ∀ e ∈ view.body.indirectExports, ∀ name, e.importName = .name name →
      map.Meets view e.request e.importName

/-- Why a name of a module has no single target: there are several, or there is none. -/
def Lacks (map : ModuleMap) (node : ExportNode) : ExportFault → Prop
  | .ambiguous => ∃ t t', t ≠ t' ∧ map.Offers node t ∧ map.Offers node t'
  | .missing | .circular => ∀ t, ¬ map.Offers node t

/-- A name that is not resolved lacks what the fault says. -/
theorem lacks_of_resolveExport {name : String} {cause : ExportFault}
    (h : map.resolveExport key name = .error cause) : map.Lacks (key, name) cause := by
  cases cause with
  | missing => exact resolveExport_eq_nothing_iff.1 (.inl h)
  | circular => exact resolveExport_eq_nothing_iff.1 (.inr h)
  | ambiguous => exact resolveExport_eq_ambiguous_iff.1 h

/-- A fault is about a request of a module: there is no module for it, or its name has no single
target. -/
inductive Blames (map : ModuleMap) (key : ModuleKey) : LinkFault → Prop
  | unbound {view : LinkView} {request : Specifier} : map.linkView? key = some view →
      view.Asks request → view.dependency? request = none → map.Blames key (.notLoaded key)
  | unresolved {target : ModuleKey} {name : String} {cause : ExportFault} :
      target ∈ (map.entry key).dependencies → map.Lacks (target, name) cause →
      map.Blames key (.unresolved cause key target name)

end ModuleMap

/-! ## Decisions -/

/-- A computation answers if and only if something holds, and a fault is about something. -/
def Decides {α : Type} (x : Except LinkFault α) (holds : Prop) (about : LinkFault → Prop) : Prop :=
  match x with
  | .ok _ => holds
  | .error fault => ¬ holds ∧ about fault

namespace Decides

variable {α β : Type} {x : Except LinkFault α} {f : α → Except LinkFault β} {P Q : Prop}
  {about : LinkFault → Prop}

/-- What is decided holds where there is no fault. -/
theorem of_ok (hx : Decides x P about) {a : α} (h : x = .ok a) : P := by
  subst h
  exact hx

/-- Where there is a fault, what is decided does not hold, and the fault is about it. -/
theorem of_error (hx : Decides x P about) {fault : LinkFault} (h : x = .error fault) :
    ¬ P ∧ about fault := by
  subst h
  exact hx

/-- One decision after another decides both, and its fault is about either. -/
theorem bind (hx : Decides x P about) (hf : ∀ a, x = .ok a → Decides (f a) Q about) :
    Decides (x >>= f) (P ∧ Q) about := by
  cases x with
  | error fault => exact ⟨fun h => hx.1 h.1, hx.2⟩
  | ok a =>
      have hrest := hf a rfl
      show Decides (f a) (P ∧ Q) about
      generalize f a = y at hrest ⊢
      cases y with
      | ok b => exact ⟨hx, hrest⟩
      | error fault => exact ⟨fun h => hrest.1 h.2, hrest.2⟩

/-- A decision is the same when its result is thrown away. -/
theorem discard (hx : Decides x P about) : Decides (discard x) P about := by
  cases x <;> exact hx

/-- What is known to hold is decided without a fault. -/
theorem ok {a : α} (h : P) : Decides (.ok a) P about :=
  h

/-- A decision decides whatever is equivalent. -/
theorem iff (hx : Decides x P about) (h : P ↔ Q) : Decides x Q about :=
  propext h ▸ hx

/-- Decisions for all members of a list decide whether all of them have what is asked for. -/
theorem mapM {as : List β} {f : β → Except LinkFault α} {P : β → Prop}
    (h : ∀ b ∈ as, Decides (f b) (P b) about) : Decides (as.mapM f) (∀ b ∈ as, P b) about := by
  induction as with
  | nil => exact fun _ hb => absurd hb (List.not_mem_nil)
  | cons b as ih =>
      rw [List.mapM_cons]
      have hrest := ih fun c hc => h c (List.mem_cons_of_mem b hc)
      refine ((h b List.mem_cons_self).bind fun a _ => (hrest.bind fun bs _ => ok trivial)).iff ?_
      simp

/-- Decisions without results, for all members of a list, decide the same. -/
theorem forM {as : List β} {f : β → Except LinkFault PUnit} {P : β → Prop}
    (h : ∀ b ∈ as, Decides (f b) (P b) about) : Decides (as.forM f) (∀ b ∈ as, P b) about := by
  induction as with
  | nil => exact fun _ hb => absurd hb (List.not_mem_nil)
  | cons b as ih =>
      have hrest := ih fun c hc => h c (List.mem_cons_of_mem b hc)
      exact ((h b List.mem_cons_self).bind fun _ _ => hrest).iff (by simp)

end Decides

/-! ## Linking -/

namespace Linker

open ModuleMap

variable {l : Linker} {key importer target : ModuleKey} {view : LinkView} {node : ExportNode}
  {t : ExportTarget} {request : Specifier} {name : String} {about : LinkFault → Prop}

/-- A module has an instance, or one in the making, with its exported locals. -/
def Covers (l : Linker) (key : ModuleKey) : Prop :=
  ∃ i body, l.instance? key = some i ∧ (l.map.entry key).body? = some body ∧
    i.locals = body.exportedLocals

/-- What a name stands for can be bound. -/
theorem decides_bind (hcovers : ∀ m, l.map.DependsOn node.1 m → l.Covers m)
    (ht : l.map.Offers node t) : Decides (l.bind importer t) True about := by
  have hspec := ht.spec
  cases t with
  | binding key name =>
      obtain ⟨hdepends, body, hbody, hname⟩ := hspec
      obtain ⟨i, body', hi, hbody', hlocals⟩ := hcovers key hdepends
      obtain rfl := Option.some.inj (hbody.symm.trans hbody')
      have hlocal : i.local? name = some ⟨i.id, name⟩ := by
        rw [Instance.local?, hlocals, if_pos (by simpa using hname)]
      simp [bind, instanceOf, hi, hlocal, Decides]
  | «namespace» key =>
      obtain ⟨i, -, hi, -⟩ := hcovers key hspec
      simp [bind, instanceOf, hi, Decides, Except.map]

/-- Binding an imported name decides whether it has one single target. -/
theorem decides_bindImport (hcovers : ∀ m, l.map.DependsOn target m → l.Covers m)
    (htarget : target ∈ (l.map.entry importer).dependencies) :
    Decides (l.bindImport importer target name) (∃! t, l.map.Offers (target, name) t)
      (l.map.Blames importer) := by
  rw [← exists_resolveExport_iff]
  unfold bindImport
  cases hresolve : l.map.resolveExport target name with
  | ok t =>
      have hoffers := (resolveExport_eq_ok_iff.1 hresolve t).2 rfl
      exact (decides_bind hcovers hoffers).iff (by simp)
  | error cause => exact ⟨by simp, .unresolved htarget (lacks_of_resolveExport hresolve)⟩

/-- Binding a request decides whether what it imports is there. -/
theorem decides_bindRequest (hview : l.map.linkView? key = some view)
    (hcovers : ∀ m, l.map.DependsOn key m → l.Covers m) (hasks : view.Asks request)
    (importName : ImportName) :
    Decides (l.bindRequest key view request importName) (l.map.Meets view request importName)
      (l.map.Blames key) := by
  unfold bindRequest Meets
  cases hrequest : view.dependency? request with
  | none => exact ⟨by simp, .unbound hview hasks hrequest⟩
  | some target =>
      have htarget : target ∈ (l.map.entry key).dependencies :=
        dependencies_of_linkView? hview ▸ LinkView.mem_dependencies hrequest
      cases importName with
      | name name =>
          refine (decides_bindImport (fun m hm => hcovers m (.head htarget hm)) htarget).iff ?_
          simp
      | «namespace» =>
          obtain ⟨i, -, hi, -⟩ := hcovers target (.single htarget)
          simp [instanceOf, hi, Decides, Except.map]

/-- The exports of a module can be bound: those without a single target are left out. -/
theorem decides_exports (hcovers : ∀ m, l.map.DependsOn key m → l.Covers m) :
    Decides (l.exports key) True about := by
  have hfound : ∀ f ∈ (l.map.exportedNames key).filterMap (fun name =>
      (l.map.resolveExport key name).toOption.map fun target => (name, target)),
      l.map.Offers (key, f.1) f.2 :=
    fun f hf => (resolveExport_eq_ok_iff.1 (mem_resolved_iff.1 hf).2 f.2).2 rfl
  have hbind : ∀ f : String × ExportTarget, l.map.Offers (key, f.1) f.2 → Decides (do
      Except.ok (f.1, ← l.bind key f.2)) (True ∧ True) about :=
    fun f hf => (decides_bind hcovers hf).bind fun _ _ => Decides.ok trivial
  exact ((Decides.mapM fun f hf => hbind f (hfound f hf)).bind fun _ _ => Decides.ok trivial).iff
    (by simp)

/-- Linking an instance decides whether its module can be linked. -/
theorem decides_link {i : Instance} (hloaded : (l.map.linkView? i.key).isSome)
    (hcovers : ∀ m, l.map.DependsOn i.key m → l.Covers m) :
    Decides (l.link i) (l.map.Links i.key) (l.map.Blames i.key) := by
  obtain ⟨view, hview⟩ := Option.isSome_iff_exists.1 hloaded
  have himports : Decides (l.imports i.key view) _ (l.map.Blames i.key) :=
    Decides.mapM fun e he => (decides_bindRequest hview hcovers (.inl ⟨e, he, rfl⟩) _).bind
      fun _ _ => Decides.ok trivial
  have hreexports : Decides (l.checkReexports i.key view)
      (∀ e ∈ view.body.indirectExports, ∀ name, e.importName = .name name →
        l.map.Meets view e.request e.importName) (l.map.Blames i.key) := by
    refine Decides.forM fun e he => ?_
    cases hname : e.importName with
    | «namespace» => exact Decides.ok (by simp)
    | name name =>
        refine (decides_bindRequest hview hcovers (.inr ⟨e, he, rfl⟩) (.name name)).discard.iff ?_
        simp
  unfold link
  simp only [hview]
  refine (himports.bind fun _ _ => hreexports.bind fun _ _ =>
    (decides_exports hcovers).bind fun _ _ => Decides.ok trivial).iff ?_
  simp [Links, hview]

end Linker

end ModuleGraph
