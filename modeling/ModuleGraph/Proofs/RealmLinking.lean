import ModuleGraph.Proofs.Bodies
import ModuleGraph.Proofs.Instantiation
import ModuleGraph.Proofs.RealmRuns

/-!
# Instantiation in realms

`Realm.Reached.instantiate_iff` is the main statement: in every realm that calls lead to,
instantiating a loaded module succeeds if and only if each name that is imported or exported again
anywhere below it has exactly one target. If it fails, exactly those of the walked modules fail that
depend on the culprit.

Invariants of realms need be checked for the three calls that others are made of only
(`Realm.Reached.induction`).
-/

namespace ModuleGraph

/-! ## Named requests -/

/-- Each name that a loaded module imports, or exports again, has exactly one target. -/
def ModuleMap.Resolves (map : ModuleMap) (key : ModuleKey) : Prop :=
  ∃ view, map.linkView? key = some view ∧
    (∀ i ∈ view.body.imports, ∀ name, i.importName = .name name →
      ∃ target, view.dependency? i.request = some target ∧ ∃! t, map.Offers (target, name) t) ∧
    ∀ e ∈ view.body.indirectExports, ∀ name, e.importName = .name name →
      ∃ target, view.dependency? e.request = some target ∧ ∃! t, map.Offers (target, name) t

/-- The dependency that is looked up for a request is the one at the request's place. -/
theorem LinkView.exists_dependency {view : LinkView} {R : Specifier → ModuleKey → Prop}
    {request : Specifier} (h : List.Forall₂ R view.body.requests view.dependencies)
    (hrequest : request ∈ view.body.requests) :
    ∃ d, view.dependency? request = some d ∧ R request d := by
  obtain ⟨position, hposition⟩ := Option.isSome_iff_exists.1 (List.isSome_idxOf?.2 hrequest)
  obtain ⟨hlt, hsame, -⟩ := List.findIdx?_eq_some_iff_getElem.1 hposition
  obtain ⟨hlength, hpairs⟩ := List.forall₂_iff_get.1 h
  have hlt' : position < view.dependencies.length := hlength ▸ hlt
  refine ⟨view.dependencies.get ⟨position, hlt'⟩, ?_, ?_⟩
  · rw [dependency?, Body.requestIndex?, hposition]
    exact List.getElem?_eq_getElem hlt'
  · rw [beq_iff_eq] at hsame
    exact hsame ▸ hpairs position hlt hlt'

namespace Catalog

open ModuleMap

variable {importMap : ImportMap} {c c' : Catalog} {key : ModuleKey} {view : LinkView}
  {library : Library}

/-- All resources that have been had come from source texts. -/
def FromTexts (c : Catalog) : Prop :=
  ∀ url resource, c.answer? url = some (.ok resource) →
    ∃ text, Resource.ofText text = .ok resource

/-- Texts have been had, if all answers are those of a library of texts. -/
theorem fromTexts_of_answeredBy {sources : List (Url × String)}
    (h : c.AnsweredBy (Library.ofSources sources).fetch) : c.FromTexts := by
  intro url resource hanswer
  have hfetch := h url _ hanswer
  unfold Library.fetch at hfetch
  cases hheld : (Library.ofSources sources).held.lookup url with
  | none => simp [hheld] at hfetch
  | some answer =>
      obtain ⟨source, -, hsource⟩ := List.mem_map.1 (mem_of_lookup hheld)
      cases hsource
      exact ⟨source.2, by simpa [hheld] using hfetch⟩

/-- A loaded module whose text has been had has the body of a declaration of the text. -/
theorem Sound.exists_declaration (h : c.Sound importMap) (htexts : c.FromTexts)
    (hview : c.map.linkView? key = some view) : ∃ text resource declaration,
      Resource.ofText text = .ok resource ∧ resource.declaration? key.path = some declaration ∧
        declaration.body = view.body := by
  obtain ⟨-, hbody⟩ := linkView?_eq_some_iff.1 hview
  obtain ⟨declaration, hdeclaration, hsame⟩ := Option.map_eq_some_iff.1 hbody
  rw [h.declared key, declaration?] at hdeclaration
  split at hdeclaration
  · next resource hanswer =>
      obtain ⟨text, htext⟩ := htexts key.url resource hanswer
      exact ⟨text, resource, declaration, htext, hdeclaration, hsame⟩
  · cases hdeclaration

/-- The dependencies of a loaded module are those that its body names. -/
theorem Sound.dependencies_of_linkView? (h : c.Sound importMap)
    (hview : c.map.linkView? key = some view) :
    view.body.dependencies importMap key.url = .ok view.dependencies := by
  have hloaded : (c.map.entry key).isLoaded := isLoaded_of_linkView? hview
  obtain ⟨hdependencies, hbody⟩ := linkView?_eq_some_iff.1 hview
  obtain ⟨declaration, hdeclaration, hsame⟩ := Option.map_eq_some_iff.1 hbody
  obtain ⟨fetch, hfetch⟩ := c.exists_answeredBy
  obtain ⟨hdeclares, -⟩ := h.declaration_of_isLoaded hfetch hloaded
  obtain ⟨hgraph, -⟩ := (h.loads fetch hfetch).loaded key _ hdependencies
  rw [Fetcher.dependencies?, ← hdeclares key rfl, hdeclaration] at hgraph
  rw [← hsame]
  cases hresolved : declaration.body.dependencies importMap key.url with
  | error fault => simp [hresolved, Except.toOption] at hgraph
  | ok dependencies => simpa [hresolved, Except.toOption] using hgraph

/-- The declarations of texts have complete bodies. -/
theorem Sound.isComplete (h : c.Sound importMap) (htexts : c.FromTexts)
    (hview : c.map.linkView? key = some view) : view.body.IsComplete := by
  obtain ⟨text, resource, declaration, htext, hdeclaration, hsame⟩ :=
    h.exists_declaration htexts hview
  have hcomplete := Resource.isComplete_ofText htext
  rw [← hsame]
  unfold Resource.declaration? at hdeclaration
  split at hdeclaration
  · cases hdeclaration
    exact hcomplete.root
  · obtain ⟨f, hf, rfl⟩ := Option.map_eq_some_iff.1 hdeclaration
    exact hcomplete.fragments f (List.mem_of_find?_eq_some hf)

/-- What a loaded module asks for is among its dependencies. -/
theorem Sound.exists_dependency (h : c.Sound importMap) (htexts : c.FromTexts)
    (hview : c.map.linkView? key = some view) {request : Specifier} (hasks : view.Asks request) :
    ∃ target, view.dependency? request = some target := by
  have hcomplete := h.isComplete htexts hview
  have hmem : request ∈ view.body.requests := by
    rcases hasks with ⟨i, hi, rfl⟩ | ⟨e, he, rfl⟩
    · exact hcomplete.imports i hi
    · exact hcomplete.indirectExports e he
  obtain ⟨target, htarget, -⟩ :=
    LinkView.exists_dependency (forall₂_of_mapM_ok (h.dependencies_of_linkView? hview)) hmem
  exact ⟨target, htarget⟩

/-- A module whose resource has come from a text can be linked if all names that it imports or
exports again have exactly one target. -/
theorem Sound.links_iff (h : c.Sound importMap) (htexts : c.FromTexts) :
    c.map.Links key ↔ c.map.Resolves key := by
  refine exists_congr fun view => and_congr_right fun hview => and_congr ?_ ?_
  · refine forall₂_congr fun i hi => ⟨fun hmeets name hname => ?_, fun hnames => ?_⟩
    · obtain ⟨target, htarget, hunique⟩ := hmeets
      exact ⟨target, htarget, hunique name hname⟩
    · obtain ⟨target, htarget⟩ := h.exists_dependency htexts hview (.inl ⟨i, hi, rfl⟩)
      refine ⟨target, htarget, fun name hname => ?_⟩
      obtain ⟨target', htarget', hunique⟩ := hnames name hname
      obtain rfl := Option.some.inj (htarget.symm.trans htarget')
      exact hunique
  · refine forall₂_congr fun e he => forall₂_congr fun name hname => exists_congr fun target => ?_
    rw [hname]
    simp

end Catalog

namespace Realm

variable {σ : Type} {h : Host σ} {r : Realm σ}

/-- Started in a realm with a property, the computation ends in one that has it, too. -/
def Preserves {α : Type} (invariant : Realm σ → Prop) (x : RealmM σ α) : Prop :=
  ∀ r, invariant r → Ends x r (fun _ r' => invariant r') fun _ r' => invariant r'

namespace Preserves

variable {α β : Type} {invariant : Realm σ → Prop} {x : RealmM σ α} {f : α → RealmM σ β}

/-- Giving an answer preserves every property. -/
theorem pure (a : α) : Preserves invariant (pure a : RealmM σ α) :=
  fun _ hr => hr

/-- Two computations, one after the other, preserve what both preserve. -/
theorem bind (hx : Preserves invariant x) (hf : ∀ a, Preserves invariant (f a)) :
    Preserves invariant (x >>= f) := by
  intro r hr
  rw [ends_bind]
  exact (hx r hr).mono (fun a r' hr' => hf a r' hr') fun _ _ hend => hend

/-- Throwing away an answer preserves what the computation preserves. -/
theorem discard (hx : Preserves invariant x) : Preserves invariant (discard x) := by
  intro r hr
  rw [ends_discard]
  exact hx r hr

/-- Resolving a specifier preserves every property. -/
theorem resolve (specifier : String) : Preserves invariant (Realm.resolve h specifier) := by
  intro r hr
  unfold Ends Realm.resolve
  cases resolveUrl h.importMap specifier h.base <;> exact hr

/-- What loading, instantiating and evaluating preserve, all calls preserve. -/
theorem run (hload : ∀ key, Preserves invariant (loadKey h key))
    (hinstantiate : ∀ key, Preserves invariant (instantiate key : RealmM σ Instance))
    (hevaluate : ∀ key, Preserves invariant (evaluate h key)) (call : Call) :
    Preserves invariant (call.run h) := by
  have himport : ∀ key, Preserves invariant (importKey h key) := fun key =>
    (hload key).bind fun _ => (hinstantiate key).bind fun i => (hevaluate key).bind fun _ => .pure i
  cases call with
  | load specifier =>
      exact ((resolve specifier).bind fun key => (hload key).bind fun _ => .pure key).discard
  | loadKey key => exact hload key
  | importSpecifier specifier => exact ((resolve specifier).bind himport).discard
  | importKey key => exact (himport key).discard
  | instantiate key => exact (hinstantiate key).discard
  | evaluate key => exact hevaluate key

end Preserves

/-- What a call preserves holds after it, whether it has succeeded or failed. -/
theorem Preserves.after {invariant : Realm σ → Prop} {call : Call}
    (hcall : Preserves invariant (call.run h)) (hr : invariant r) : invariant (call.after h r) :=
  Call.after_of_ends (hcall r hr)

/-- Started in a sound realm with a property, the computation ends in one that has it, too. -/
def PreservesSoundly {α : Type} (h : Host σ) (invariant : Realm σ → Prop) (x : RealmM σ α) : Prop :=
  ∀ r, r.catalog.Sound h.importMap → invariant r →
    Ends x r (fun _ r' => invariant r') fun _ r' => invariant r'

/-- A computation that keeps realms sound preserves what it preserves in sound ones. -/
theorem PreservesSoundly.preserves {α : Type} {invariant : Realm σ → Prop} {x : RealmM σ α}
    (hx : PreservesSoundly h invariant x) (hkeeps : Keeps h x) :
    Preserves (fun r => r.catalog.Sound h.importMap ∧ invariant r) x := by
  intro r hr
  exact ((hkeeps r hr.1).and (hx r hr.1 hr.2)).mono (fun _ r' hend => ⟨hend.1.sound, hend.2⟩)
    fun _ r' hend => ⟨hend.1.2.sound, hend.2⟩

/-- What loading, instantiating and evaluating preserve of sound realms, all calls preserve. -/
theorem PreservesSoundly.run {invariant : Realm σ → Prop}
    (hload : ∀ key, PreservesSoundly h invariant (loadKey h key))
    (hinstantiate : ∀ key, PreservesSoundly h invariant (instantiate key : RealmM σ Instance))
    (hevaluate : ∀ key, PreservesSoundly h invariant (evaluate h key)) (call : Call) :
    Preserves (fun r => r.catalog.Sound h.importMap ∧ invariant r) (call.run h) :=
  Preserves.run (fun key => (hload key).preserves (keeps_loadKey key))
    (fun key => (hinstantiate key).preserves (keeps_instantiate key))
    (fun key => (hevaluate key).preserves (keeps_evaluate key)) call

/-- Invariants of realms. -/
theorem Reached.induction (invariant : Realm σ → Prop)
    (hfresh : ∀ host, invariant (Realm.fresh host))
    (hload : ∀ (h' : Host σ), h'.importMap = h.importMap → ∀ key,
      PreservesSoundly h' invariant (loadKey h' key))
    (hinstantiate : ∀ (h' : Host σ), h'.importMap = h.importMap → ∀ key,
      PreservesSoundly h' invariant (instantiate key : RealmM σ Instance))
    (hevaluate : ∀ (h' : Host σ), h'.importMap = h.importMap → ∀ key,
      PreservesSoundly h' invariant (evaluate h' key))
    (hr : Reached h r) : invariant r := by
  suffices hboth : r.catalog.Sound h.importMap ∧ invariant r from hboth.2
  induction hr with
  | fresh host => exact ⟨.empty, hfresh host⟩
  | @call r library execute call _ ih =>
      have hcall := PreservesSoundly.run (h := { h with library, execute }) (hload _ rfl)
        (hinstantiate _ rfl) (hevaluate _ rfl) call
      exact hcall.after ih

/-- A load leaves true what the map says of linking. -/
theorem preserves_linkSound_loadKey (key : ModuleKey) :
    PreservesSoundly h (fun r => r.map.LinkSound) (loadKey h key) := by
  intro r hr hlink
  refine (ends_loadKey_loads h key hr).imp fun _ hend => ?_
  obtain ⟨c, hloads, rfl⟩ := hend
  exact hr.linkSound_loads hlink hloads

/-- Instantiation leaves true what the map says of linking. -/
theorem preserves_linkSound_instantiate (key : ModuleKey) :
    PreservesSoundly h (fun r => r.map.LinkSound) (instantiate key : RealmM σ Instance) := by
  intro r hr hlink
  refine (ends_instantiate_linked (hr.linkSound_instantiate hlink r.rounds key)).imp
    fun _ hend => ?_
  obtain ⟨map, hlink', rfl⟩ := hend
  exact hlink'

/-- Evaluation leaves true what the map says of linking. -/
theorem preserves_linkSound_evaluate (key : ModuleKey) :
    PreservesSoundly h (fun r => r.map.LinkSound) (evaluate h key) := by
  intro r hr hlink
  refine (ends_evaluate_of (hr.linkSound_evaluate hlink h.execute key r.ran r.host)).mono ?_ ?_
  · rintro _ _ ⟨e, hlink', rfl⟩
    exact hlink'
  · rintro _ _ ⟨_, e, hlink', -, rfl⟩
    exact hlink'

/-- What the map of a realm says of linking is true. -/
theorem Reached.linkSound (hr : Reached h r) : r.map.LinkSound :=
  hr.induction (fun r => r.map.LinkSound) (fun _ => .empty)
    (fun _ _ => preserves_linkSound_loadKey) (fun _ _ => preserves_linkSound_instantiate)
    fun _ _ => preserves_linkSound_evaluate

/-- Why an instantiation fails: an importer, on which the module depends, asks for a name that has
no single target. The culprit is the importer, or has failed because of it before; the walked
modules that depend on the one are those that depend on the other. -/
structure Blocked (map : ModuleMap) (key : ModuleKey) (fault : LinkFault) (culprit : ModuleKey) :
    Prop where
  importer : ∃ cause importer target name, fault = .unresolved cause importer target name ∧
    ¬ map.Resolves importer ∧ target ∈ (map.entry importer).dependencies ∧
    map.Lacks (target, name) cause ∧ map.DependsOn culprit importer ∧
    (culprit = importer ∧ importer ∈ map.walked key ∨
      (map.entry culprit).failure = some (.link fault) ∧
        (map.entry importer).failure = some (.link fault)) ∧
    ∀ m ∈ map.walked key, map.DependsOn m culprit ↔ map.DependsOn m importer
  depends : map.DependsOn key culprit

/-- What a failed instantiation leaves behind. -/
theorem Reached.blocked (hr : Reached h r) (htexts : r.catalog.FromTexts) {key m : ModuleKey}
    {culprit : ModuleKey} {fault : LinkFault} {map : ModuleMap}
    (h : r.map.Refuses key fault m culprit map) : Blocked r.map key fault culprit := by
  have hunresolved : ¬ r.map.Resolves m := fun hm => h.unlinked ((hr.sound.links_iff htexts).2 hm)
  refine ⟨?_, h.depends⟩
  cases h.blames with
  | unbound hview hasks hnone =>
      obtain ⟨target, htarget⟩ := hr.sound.exists_dependency htexts hview hasks
      simp [hnone] at htarget
  | @unresolved target name cause htarget hlacks =>
      exact ⟨cause, m, target, name, rfl, hunresolved, htarget, hlacks, h.leads, h.origin,
        fun k hk => (h.dependents k hk).2⟩

/-- Instantiating a loaded module succeeds if and only if all names that are imported or exported
again by the modules it depends on have exactly one target, whatever has been instantiated or has
failed before. All of these modules have an instance then. If it fails, nothing gets an instance,
and the module and exactly those of the walked modules fail that are the culprit or depend on it. -/
theorem Reached.instantiate_iff (hr : Reached h r) (htexts : r.catalog.FromTexts) (key : ModuleKey)
    (hkey : r.map.isLoaded key) :
    ((∃ i r', instantiate key r = .ok i r') ↔
      ∀ m, r.map.DependsOn key m → r.map.Resolves m) ∧
    (∀ i r', instantiate key r = .ok i r' →
      ∀ m, r.map.DependsOn key m → (r'.map.instance? m).isSome) ∧
    ∀ halt r', instantiate key r = .error halt r' → ∃ fault culprit,
      halt = .fault (.link fault) ∧ Blocked r.map key fault culprit ∧
      (∀ m, r'.map.instance? m = r.map.instance? m) ∧
      r'.map.status? key = some .failed ∧ (r'.map.entry key).failure = some (.link fault) ∧
      (∀ m, r'.map.entry m ≠ r.map.entry m →
        r'.map.entry m = { r.map.entry m with failure := some (.link fault) }) ∧
      (∀ m ∈ r.map.walked key, r.map.status? m = some .loaded ∧
        (r'.map.status? m = some .failed ↔ r.map.DependsOn m culprit)) ∧
      ∀ m, m ∉ r.map.walked key ∨ ¬ r.map.DependsOn m culprit →
        r'.map.entry m = r.map.entry m := by
  have hloaded : (r.map.entry key).isLoaded := ModuleMap.isLoaded_eq ▸ hkey
  have hends := hr.sound.ends_instantiate_loaded hr.linkSound r.rounds hloaded
  have hlinks : ∀ m, r.map.Links m ↔ r.map.Resolves m := fun m => hr.sound.links_iff htexts
  -- what holds of the map is known; the realm only passes on how its instantiation ends
  cases hresult : ModuleMap.instantiate r.rounds key r.catalog.map with
  | ok i map =>
      have hcall : (instantiate key : RealmM σ Instance) r = .ok i (r.linked map) := by
        simp only [instantiate, Realm.map, hresult, linked]
      obtain ⟨-, hall⟩ := hends.of_ok hresult
      refine ⟨⟨fun _ m hm => (hlinks m).1 (hall m hm).1, fun _ => ⟨i, _, hcall⟩⟩, ?_, ?_⟩
      · intro i' r' hcall' m hm
        rw [hcall] at hcall'
        cases hcall'
        rw [ModuleMap.instance?_eq]
        exact (hall m hm).2
      · intro halt r' hcall'
        rw [hcall] at hcall'
        cases hcall'
  | error halt map =>
      obtain ⟨-, fault, m, culprit, rfl, hrefuses, hfailure⟩ := hends.of_error hresult
      have hcall : (instantiate key : RealmM σ Instance) r =
          .error (.fault (.link fault)) (r.linked map) := by
        simp only [instantiate, Realm.map, hresult, Halt.map, linked]
      refine ⟨⟨?_, fun hall => ?_⟩, ?_, ?_⟩
      · rintro ⟨i, r', hcall'⟩
        rw [hcall] at hcall'
        cases hcall'
      · have hm := hall m (hrefuses.depends.trans hrefuses.leads)
        exact absurd ((hlinks m).2 hm) hrefuses.unlinked
      · intro i' r' hcall'
        rw [hcall] at hcall'
        cases hcall'
      · intro halt' r' hcall'
        rw [hcall] at hcall'
        cases hcall'
        have hstatus : ∀ k, (r.linked map).map.status? k = some .failed ↔
            (map.entry k).status = .failed :=
          fun k => ModuleMap.status?_eq_some_iff (by simp)
        refine ⟨fault, culprit, rfl, hr.blocked htexts hrefuses, fun k => ?_, ?_, hfailure,
          fun k hk => hrefuses.changed hk, fun k hk => ⟨?_, ?_⟩, fun k hk => hrefuses.kept hk⟩
        · rw [ModuleMap.instance?_eq, ModuleMap.instance?_eq]
          exact hrefuses.instance?_eq k
        · rw [hstatus, Entry.status_eq_failed_iff]
          exact Option.isSome_of_eq_some hfailure
        · rw [ModuleMap.status?_eq_some_iff (by simp)]
          exact hrefuses.ready k hk
        · rw [hstatus]
          exact hrefuses.failed_iff hk

/-! ## A module that imports a name that is not there -/

/-- The key of a local file's top-level module. -/
def fileKey (name : String) : ModuleKey :=
  ⟨⟨"file", none, .segments [name], none, none⟩, []⟩

/-- A host with three texts, of which `app.js` imports a name that `lib.js` does not export. -/
def partialHost : Host Unit :=
  ⟨(fileKey "main.js").url, ImportMap.empty,
    .ofSources [((fileKey "main.js").url, "import './app.js'; import './lib.js';"),
      ((fileKey "app.js").url, "import { x } from './lib.js';"),
      ((fileKey "lib.js").url, "export const y = 1;")],
    fun _ host => (.ok (), host)⟩

/-- The realm that has loaded `main.js`. -/
def partialRealm : Realm Unit :=
  Call.afterAll partialHost [.loadKey (fileKey "main.js")] (fresh ())

/-- The realm is reached by these calls. -/
theorem reached_partialRealm : Reached partialHost partialRealm :=
  .afterAll _ (.fresh ())

/-- Its resources come from their texts. -/
theorem fromTexts_partialRealm : partialRealm.catalog.FromTexts :=
  Catalog.fromTexts_of_answeredBy (answeredBy_afterAll partialHost () _)

/-- Whether instantiating one of the texts succeeds. -/
def partialAnswer (name : String) : Bool :=
  match (instantiate (fileKey name) : RealmM Unit Instance) partialRealm with
  | .ok _ _ => true
  | .error _ _ => false

/-- Below `main.js` a name is missing, so that it cannot be instantiated; below `lib.js` none is. -/
theorem instantiate_iff_partial :
    Reached partialHost partialRealm ∧ partialRealm.catalog.FromTexts ∧
      partialRealm.map.isLoaded (fileKey "main.js") ∧ partialRealm.map.isLoaded (fileKey "lib.js") ∧
      (¬ ∀ m, partialRealm.map.DependsOn (fileKey "main.js") m → partialRealm.map.Resolves m) ∧
      ∀ m, partialRealm.map.DependsOn (fileKey "lib.js") m → partialRealm.map.Resolves m := by
  obtain ⟨hmain, hlib, hfails, hsucceeds⟩ : partialRealm.map.isLoaded (fileKey "main.js") ∧
      partialRealm.map.isLoaded (fileKey "lib.js") ∧ partialAnswer "main.js" = false ∧
      partialAnswer "lib.js" = true := by
    decide +kernel
  have hiff := fun key hkey =>
    (reached_partialRealm.instantiate_iff fromTexts_partialRealm key hkey).1
  refine ⟨reached_partialRealm, fromTexts_partialRealm, hmain, hlib, fun hall => ?_, ?_⟩
  · obtain ⟨i, r', hok⟩ := (hiff _ hmain).2 hall
    rw [partialAnswer, hok] at hfails
    cases hfails
  · refine (hiff _ hlib).1 ?_
    unfold partialAnswer at hsucceeds
    split at hsucceeds
    · next i r' hok => exact ⟨i, r', hok⟩
    · cases hsucceeds

-- `lib.js` has been walked, too, but does not depend on the culprit.
example : ((Call.instantiate (fileKey "main.js")).after partialHost partialRealm).map.entries.map
    Entry.status = [.failed, .failed, .loaded] := by
  decide +kernel

end Realm

end ModuleGraph
