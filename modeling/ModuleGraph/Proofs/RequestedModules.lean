import ModuleGraph.Proofs.LiveBindings

/-!
# What a module requests and depends on

The extraction of a body lists its requests, loading stores one dependency for each of them, and
linking looks dependencies up by request. `Requested` says that the three agree. It holds of every
loaded module of a realm (`Realm.Reached.requests_aligned`), so that linking finds everything it
looks for: it fails for names that have no single target, and for nothing else (`Linker.Supplies`).
-/

namespace ModuleGraph

/-! ## Requests of a body -/

/-- The first occurrences of a list are all different. -/
theorem nodup_firstOccurrences {α : Type} [BEq α] [LawfulBEq α] (as : List α) :
    (firstOccurrences as).Nodup := by
  induction as with
  | nil => exact .nil
  | cons a as ih =>
      rw [firstOccurrences, List.nodup_cons]
      exact ⟨by simp [List.mem_filter], ih.filter _⟩

/-- Each declaration of a text has the body of some statements. -/
theorem Resource.exists_statements {text : String} {resource : Resource}
    (h : ofText text = .ok resource) {path : FragmentPath} {declaration : Declaration}
    (hdeclaration : resource.declaration? path = some declaration) :
    ∃ source path statements, declaration.body = Body.ofStatements source path statements := by
  obtain ⟨tree, -, htree⟩ := ofText_eq_ok h
  obtain ⟨hroot, hfragments⟩ := ofTree_eq_ok htree
  unfold declaration? at hdeclaration
  split at hdeclaration
  · cases hdeclaration
    exact ⟨_, _, _, hroot⟩
  · obtain ⟨f, hf, rfl⟩ := Option.map_eq_some_iff.1 hdeclaration
    obtain ⟨d, -, hd⟩ := hfragments f (List.mem_of_find?_eq_some hf)
    exact ⟨_, _, _, hd.body⟩

/-- The dependencies of a module are what its requests name, in their order, and its requests are
all that its body declares something about, each of them once. -/
structure Requested (importMap : ImportMap) (base : Url) (body : Body)
    (dependencies : List ModuleKey) : Prop where
  distinct : body.requests.Nodup
  complete : body.IsComplete
  resolved : List.Forall₂ (fun request d => resolve importMap request base body.scope = .ok d)
    body.requests dependencies

namespace Requested

variable {importMap : ImportMap} {base : Url} {view : LinkView} {request : Specifier}

/-- No star export is left out. -/
theorem map_starExports (h : Requested importMap base view.body view.dependencies) :
    view.body.starExports.map view.dependency? = view.starDependencies.map some := by
  have hall : ∀ request ∈ view.body.starExports, ∃ d, view.dependency? request = some d := by
    intro request hrequest
    obtain ⟨d, hd, -⟩ := LinkView.exists_dependency h.resolved (h.complete.starExports hrequest)
    exact ⟨d, hd⟩
  unfold LinkView.starDependencies
  generalize view.body.starExports = requests at hall
  induction requests with
  | nil => rfl
  | cons request requests ih =>
      obtain ⟨d, hd⟩ := hall request (List.mem_cons_self ..)
      have hrest := ih fun request hrequest => hall request (List.mem_cons_of_mem _ hrequest)
      rw [List.map_cons, hd, List.filterMap_cons_some hd, List.map_cons, hrest]

end Requested

namespace Catalog

open ModuleMap

variable {importMap : ImportMap} {c : Catalog} {key : ModuleKey} {view : LinkView}

/-- The dependencies of a loaded module whose text has been had are those that it requests. -/
theorem Sound.requested (h : c.Sound importMap) (htexts : c.FromTexts)
    (hview : c.map.linkView? key = some view) :
    Requested importMap key.url view.body view.dependencies := by
  refine ⟨?_, h.isComplete htexts hview, forall₂_of_mapM_ok (h.dependencies_of_linkView? hview)⟩
  obtain ⟨text, resource, declaration, htext, hdeclaration, hsame⟩ :=
    h.exists_declaration htexts hview
  obtain ⟨source, path, statements, hbody⟩ := Resource.exists_statements htext hdeclaration
  rw [← hsame, hbody]
  exact nodup_firstOccurrences _

end Catalog

/-! ## What linking finds -/

/-- While an instance is linked, everything that its module depends on has an instance, and every
target of a name there can be bound. Linking fails for a name without a single target only. -/
structure Linker.Supplies (l : Linker) (i : Instance) : Prop where
  instanceOf : ∀ m, l.map.DependsOn i.key m → ∃ j, l.instanceOf m = .ok j
  bind : ∀ m name t, l.map.DependsOn i.key m → l.map.resolveExport m name = .ok t →
    ∀ importer, ∃ b, l.bind importer t = .ok b
  fault : ∀ fault, l.link i = .error fault → ∃ cause target name,
    fault = .unresolved cause i.key target name ∧ target ∈ (l.map.entry i.key).dependencies ∧
      l.map.Lacks (target, name) cause

namespace Catalog

open ModuleMap

variable {importMap : ImportMap} {c : Catalog} {key : ModuleKey} {collection : Collection}
  {round : Nat} {fresh : List Instance}

/-- Linking what has been collected finds all that it looks for. -/
theorem Sound.supplies (h : c.Sound importMap) (htexts : c.FromTexts) (hlink : c.map.LinkSound)
    (hinv : Collection.Inv c.map collection) (hsettled : collection.visited ⊆ collection.order)
    (hfresh : LinkM.Prepares c.map round collection.order fresh) {i : Instance} (hi : i ∈ fresh) :
    Linker.Supplies ⟨c.map, fresh⟩ i := by
  have hmem : i.key ∈ collection.order := hfresh.keys ▸ List.mem_map_of_mem hi
  have hcovers : ∀ m, c.map.DependsOn i.key m → Linker.Covers ⟨c.map, fresh⟩ m :=
    fun m hm => h.covers hlink hinv hsettled hfresh (.inr hmem) hm
  constructor
  case instanceOf =>
    intro m hm
    obtain ⟨j, -, hj, -⟩ := hcovers m hm
    exact ⟨j, by rw [Linker.instanceOf, hj]⟩
  case bind =>
    intro m name t hm hresolve importer
    have hoffers := (resolveExport_eq_ok_iff.1 hresolve t).2 rfl
    have hbinds : Decides (Linker.bind ⟨c.map, fresh⟩ importer t) True fun _ => False := by
      refine Linker.decides_bind (fun k hk => ?_) hoffers
      exact hcovers k (hm.trans hk)
    cases hbind : Linker.bind ⟨c.map, fresh⟩ importer t with
    | ok b => exact ⟨b, rfl⟩
    | error fault => exact (hbinds.of_error hbind).2.elim
  case fault =>
    intro fault hfault
    obtain ⟨-, hblames⟩ := (h.decides_link hlink hinv hsettled hfresh hi).of_error hfault
    cases hblames with
    | unbound hview hasks hnone =>
        obtain ⟨target, htarget⟩ := h.exists_dependency htexts hview hasks
        simp [hnone] at htarget
    | @unresolved target name cause htarget hlacks =>
        exact ⟨cause, target, name, rfl, htarget, hlacks⟩

/-- The instances of a collection are made, and linking them finds what it looks for. -/
theorem Sound.exists_prepare (h : c.Sound importMap) (htexts : c.FromTexts)
    (hlink : c.map.LinkSound) (hkey : c.map.IsReady key)
    (hcollect : c.map.collect (c.map.entries.length + 1) key ⟨[], []⟩ = .ok () collection)
    (round : Nat) : ∃ fresh, LinkM.prepare round collection.order c.map = .ok fresh c.map ∧
      ∀ i ∈ fresh, Linker.Supplies ⟨c.map, fresh⟩ i := by
  obtain ⟨hinv, -, hsettled, -⟩ := (ends_collect_first hkey).of_ok hcollect
  have hprepare : Ends (LinkM.prepare round collection.order) c.map _ _ :=
    LinkM.ends_prepare round collection.order
  cases hresult : LinkM.prepare round collection.order c.map with
  | ok fresh map =>
      obtain ⟨rfl, hfresh⟩ := hprepare.of_ok hresult
      exact ⟨fresh, rfl, fun i hi => h.supplies htexts hlink hinv hsettled hfresh hi⟩
  | error halt map =>
      obtain ⟨-, k, hk, hbody, -⟩ := hprepare.of_error hresult
      have hready := hinv.ready k (hinv.order_visited hk)
      obtain ⟨view, hview⟩ := h.linkView?_of_isLoaded hready.facts.2.1
      rw [(linkView?_eq_some_iff.1 hview).2] at hbody
      cases hbody

end Catalog

namespace Realm

variable {σ : Type} {h : Host σ} {r : Realm σ}

/-- A loaded module cannot be instantiated if a name has no single target, and in no other case. -/
theorem Reached.fault_of_instantiate (hr : Reached h r) (htexts : r.catalog.FromTexts)
    {key : ModuleKey} (hkey : r.map.isLoaded key) {halt : Halt RealmFault} {r' : Realm σ}
    (hfails : instantiate key r = .error halt r') : ∃ cause importer target name,
      halt = .fault (.link (.unresolved cause importer target name)) ∧
        target ∈ (r.map.entry importer).dependencies ∧ r.map.Lacks (target, name) cause := by
  have hloaded : (r.map.entry key).isLoaded := ModuleMap.isLoaded_eq ▸ hkey
  have hends := ends_instantiate_of
    (hr.sound.ends_instantiate_loaded hr.linkSound r.rounds hloaded)
  obtain ⟨_, _, ⟨-, fault, m, culprit, rfl, hrefuses, -⟩, rfl, -⟩ := hends.of_error hfails
  obtain ⟨cause, importer, target, name, rfl, -, htarget, hlacks, -⟩ :=
    (hr.blocked htexts hrefuses).importer
  exact ⟨cause, importer, target, name, rfl, htarget, hlacks⟩

/-- The requests of a loaded module are distinct, name its dependencies in their order, and are all
that its body imports or exports again. Therefore no `export *` is skipped when exports are
resolved, instantiating a loaded module fails because of a name without a single target only, and
linking finds an instance and a cell for whatever has been resolved. -/
theorem Reached.requests_aligned (hr : Reached h r) (htexts : r.catalog.FromTexts) :
    (∀ key, r.map.isLoaded key → ∃ body, (r.map.entry key).body? = some body ∧
      Requested h.importMap key.url body (r.map.entry key).dependencies) ∧
    (∀ key view, r.map.linkView? key = some view →
      view.body.starExports.map view.dependency? = view.starDependencies.map some ∧
        ∀ d ∈ view.starDependencies, (r.map.linkView? d).isSome) ∧
    (∀ key halt r', r.map.isLoaded key → instantiate key r = .error halt r' →
      ∃ cause importer target name,
        halt = .fault (.link (.unresolved cause importer target name)) ∧
          target ∈ (r.map.entry importer).dependencies ∧ r.map.Lacks (target, name) cause) ∧
    ∀ key collection, r.map.status? key = some .loaded →
      r.map.collect (r.map.entries.length + 1) key ⟨[], []⟩ = .ok () collection →
        ∃ fresh, LinkM.prepare r.rounds collection.order r.map = .ok fresh r.map ∧
          ∀ i ∈ fresh, Linker.Supplies ⟨r.map, fresh⟩ i := by
  refine ⟨fun key hkey => ?_, fun key view hview => ?_,
    fun key halt r' hkey hfails => hr.fault_of_instantiate htexts hkey hfails,
    fun key collection hstatus hcollect => ?_⟩
  · have hloaded : (r.map.entry key).isLoaded := ModuleMap.isLoaded_eq ▸ hkey
    obtain ⟨view, hview⟩ := hr.sound.linkView?_of_isLoaded hloaded
    refine ⟨view.body, (ModuleMap.linkView?_eq_some_iff.1 hview).2, ?_⟩
    have hdependencies : (r.map.entry key).dependencies = view.dependencies :=
      ModuleMap.dependencies_of_linkView? hview
    rw [hdependencies]
    exact hr.sound.requested htexts hview
  · have hrequested := hr.sound.requested htexts hview
    refine ⟨hrequested.map_starExports, fun d hd => ?_⟩
    obtain ⟨request, -, hrequest⟩ := List.mem_filterMap.1 hd
    have hmem : d ∈ (r.map.entry key).dependencies := by
      rw [ModuleMap.dependencies_of_linkView? hview]
      exact LinkView.mem_dependencies hrequest
    obtain ⟨view', hview'⟩ := hr.sound.linkView?_of_isLoaded (hr.sound.closed key d hmem)
    exact Option.isSome_of_eq_some hview'
  · exact hr.sound.exists_prepare htexts hr.linkSound
      ((ModuleMap.status?_eq_some_iff (by simp)).1 hstatus) hcollect r.rounds

/-! ## Star exports in a cycle -/

/-- A host with two texts that pass on each other's exports. -/
def starHost : Host Unit :=
  ⟨(fileKey "main.js").url, ImportMap.empty,
    .ofSources [((fileKey "main.js").url,
        "import { y } from './lib.js'; export * from './lib.js'; import './main.js';"),
      ((fileKey "lib.js").url, "export * from './main.js'; export const y = 1;")],
    fun _ host => (.ok (), host)⟩

/-- The realm that has loaded both texts. -/
def starRealm : Realm Unit :=
  Call.afterAll starHost [.loadKey (fileKey "main.js")] (fresh ())

/-- The realm is reached by these calls. -/
theorem reached_starRealm : Reached starHost starRealm :=
  .afterAll _ (.fresh ())

/-- Its resources come from their texts. -/
theorem fromTexts_starRealm : starRealm.catalog.FromTexts :=
  Catalog.fromTexts_of_answeredBy (answeredBy_afterAll starHost () _)

/-- The order in which the modules that have no instance yet are linked. -/
def linkOrder? (map : ModuleMap) (key : ModuleKey) : Option (List ModuleKey) :=
  match map.collect (map.entries.length + 1) key ⟨[], []⟩ with
  | .ok _ collection => some collection.order
  | .error _ _ => none

/-- Dependencies stand opposite to requests in a cycle of `export *`, and linking finds all that it
looks for. -/
theorem requests_aligned_starRealm :
    Reached starHost starRealm ∧ starRealm.catalog.FromTexts ∧
      (∃ body, body.requests.length = 2 ∧ Requested starHost.importMap (fileKey "main.js").url body
        [fileKey "lib.js", fileKey "main.js"]) ∧
      ∃ fresh, fresh.map Instance.key = [fileKey "lib.js", fileKey "main.js"] ∧
        ∀ i ∈ fresh, Linker.Supplies ⟨starRealm.map, fresh⟩ i := by
  obtain ⟨hloaded, hstatus, hdependencies, horder⟩ :
      starRealm.map.isLoaded (fileKey "main.js") ∧
      starRealm.map.status? (fileKey "main.js") = some .loaded ∧
      (starRealm.map.entry (fileKey "main.js")).dependencies =
        [fileKey "lib.js", fileKey "main.js"] ∧
      linkOrder? starRealm.map (fileKey "main.js") =
        some [fileKey "lib.js", fileKey "main.js"] := by
    decide +kernel
  obtain ⟨hrequested, -, -, hlinks⟩ := reached_starRealm.requests_aligned fromTexts_starRealm
  obtain ⟨body, -, hbody⟩ := hrequested _ hloaded
  rw [hdependencies] at hbody
  refine ⟨reached_starRealm, fromTexts_starRealm, ⟨body, hbody.resolved.length_eq, hbody⟩, ?_⟩
  unfold linkOrder? at horder
  split at horder
  · next collection hcollect =>
      obtain ⟨fresh, hprepare, hsupplies⟩ := hlinks _ collection hstatus hcollect
      have hprepares := (LinkM.ends_prepare starRealm.rounds collection.order).of_ok hprepare
      exact ⟨fresh, hprepares.2.keys.trans (Option.some.inj horder), hsupplies⟩
  · cases horder

end Realm

end ModuleGraph
