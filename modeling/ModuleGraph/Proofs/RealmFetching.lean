import ModuleGraph.Proofs.LibraryUse
import ModuleGraph.Proofs.RealmRequests

/-!
# What a realm asks its library for

`Realm.Reached.fetches` is the main statement: no URL is asked for twice, a call asks only for the
URLs of what its module leads to, and the first call that loads a module asks for all of these.
-/

namespace ModuleGraph.Realm

variable {σ : Type} {h : Host σ} {r r' : Realm σ} {key : ModuleKey}

/-- All that a module leads to has been asked for. -/
def Asked (h : Host σ) (key : ModuleKey) (r : Realm σ) : Prop :=
  ∀ m, Fetcher.Reaches h.importMap h.library.fetch key m → m.url ∈ r.catalog.fetched

/-- What has been asked for stays asked for while the answers stay. -/
theorem Asked.of_answers (hr : Asked h key r) (hanswers : r'.catalog.answers = r.catalog.answers) :
    Asked h key r' := by
  intro m hm
  rw [Catalog.fetched, hanswers]
  exact hr m hm

/-- A load from a fresh realm asks for all that its module leads to. -/
theorem ends_loadKey_asked (h : Host σ) (host : σ) (key : ModuleKey) :
    Ends (loadKey h key) (fresh host) (fun _ => Asked h key) fun _ => Asked h key := by
  have hpending : ∀ k, (fresh host).catalog.map.isPending k := fun _ => rfl
  have hsound : (fresh host).catalog.Sound h.importMap := .empty
  have hload := hsound.ends_load_asks (answeredBy_fresh host h.library.fetch) hpending key
  refine (ends_loadKey_catalog (r := fresh host) hload).imp fun _ hend => ?_
  obtain ⟨c, hasked, rfl⟩ := hend
  exact hasked

/-- Importing a module asks for what loading it asks for. -/
theorem answers_after_importKey (hr : r.catalog.Sound h.importMap) (key : ModuleKey) :
    ((Call.importKey key).after h r).catalog.answers =
      ((Call.loadKey key).after h r).catalog.answers := by
  generalize hloaded : (Call.loadKey key).after h r = loaded
  have hload : Ends (loadKey h key) r
      (fun _ r' => r'.catalog.Sound h.importMap ∧ r' = loaded)
      fun _ r' => r'.catalog.Sound h.importMap ∧ r' = loaded := by
    subst hloaded
    refine ((keeps_loadKey key r hr).and (Call.ends_after h r (.loadKey key))).mono ?_ ?_
    · exact fun _ _ hend => ⟨hend.1.sound, hend.2⟩
    · exact fun _ _ hend => ⟨hend.1.2.sound, hend.2⟩
  have hinstantiate : PreservesSoundly h (fun r' => r'.catalog.answers = loaded.catalog.answers)
      (instantiate key : RealmM σ Instance) := fun r' _ hr' =>
    (ends_instantiate_loses r' key).imp fun _ hend => hend.1.trans hr'
  have hevaluate : PreservesSoundly h (fun r' => r'.catalog.answers = loaded.catalog.answers)
      (evaluate h key) := fun r' hsound hr' =>
    (ends_evaluate_loses key hsound).imp fun _ hend => hend.1.trans hr'
  have hrest := (hinstantiate.preserves (keeps_instantiate key)).bind fun i =>
    (hevaluate.preserves (keeps_evaluate key)).bind fun _ => .pure i
  have himport : Ends (importKey h key) r
      (fun _ r' => r'.catalog.answers = loaded.catalog.answers)
      fun _ r' => r'.catalog.answers = loaded.catalog.answers := by
    unfold importKey
    rw [ends_bind]
    refine hload.mono (fun _ r' hend => ?_) fun _ r' hend => by rw [hend.2]
    exact (hrest r' ⟨hend.1, by rw [hend.2]⟩).imp fun _ hend => hend.2
  have hrun : Ends ((Call.importKey key).run h) r _ _ := himport.discard
  have hafter := Call.after_of_ends hrun
  exact hafter

/-- The first call that loads a module asks for all that the module leads to. -/
theorem asked_after (h : Host σ) (host : σ) {call : Call} (hloads : call.isLoading)
    (hkey : call.key? h = some key) : Asked h key (call.after h (fresh host)) := by
  have hload : Ends ((Call.loadKey key).run h) (fresh host) _ _ := ends_loadKey_asked h host key
  have hasked := Call.after_of_ends hload
  rw [Call.after_keyed hkey]
  cases call with
  | load | loadKey => exact hasked
  | importSpecifier | importKey => exact hasked.of_answers (answers_after_importKey .empty key)
  | instantiate | evaluate => cases hloads

/-- A load with a library that agrees on what is asked for comes to the same. -/
theorem ends_loadKey_congr (library' : Library) (key : ModuleKey)
    (hr : r.catalog.Sound h.importMap) :
    Ends (loadKey h key) r
      (fun _ r' => r.catalog.AgreeOn h.library library' r'.catalog →
        loadKey { h with library := library' } key r = loadKey h key r)
      fun _ r' => r.catalog.AgreeOn h.library library' r'.catalog →
        loadKey { h with library := library' } key r = loadKey h key r := by
  have hsame : Catalog.load h.importMap library' key r.catalog =
        Catalog.load h.importMap h.library key r.catalog →
      loadKey { h with library := library' } key r = loadKey h key r := by
    intro hload
    rw [loadKey, loadKey, hload]
  refine (ends_loadKey_catalog (hr.ends_load_congr h.library library' key)).imp ?_
  intro _ hend hagree
  obtain ⟨c, hc, rfl⟩ := hend
  exact hsame (hc hagree)

/-- A call depends on its library by the answers only that it asks for. -/
theorem after_congr (library' : Library) (call : Call) (hr : r.catalog.Sound h.importMap)
    (hagree : r.catalog.AgreeOn h.library library' (call.after h r).catalog) :
    call.after { h with library := library' } r = call.after h r := by
  have hkeys : call.key? { h with library := library' } = call.key? h := by cases call <;> rfl
  cases hkey : call.key? h with
  | none => rw [Call.after_of_key?_eq_none hkey, Call.after_of_key?_eq_none (hkeys.trans hkey)]
  | some key =>
      have hload : Ends ((Call.loadKey key).run h) r _ _ := ends_loadKey_congr library' key hr
      have hsame := Call.after_of_ends hload
      rw [Call.after_keyed hkey] at hagree
      rw [Call.after_keyed hkey, Call.after_keyed (hkeys.trans hkey)]
      cases call with
      | load | loadKey =>
          show Call.after _ (.loadKey key) r = Call.after _ (.loadKey key) r
          rw [Call.after, Call.run, hsame hagree]
          rfl
      | importSpecifier | importKey =>
          have hloads : loadKey { h with library := library' } key r = loadKey h key r := by
            refine hsame fun url hurl => hagree url ?_
            rwa [Catalog.fetched, Call.keyed, answers_after_importKey hr]
          have himport : importKey { h with library := library' } key r = importKey h key r := by
            show EStateM.bind _ _ r = EStateM.bind _ _ r
            unfold EStateM.bind
            rw [hloads]
            rfl
          show Call.after _ (.importKey key) r = Call.after _ (.importKey key) r
          rw [Call.after, Call.run, discard_apply, himport, ← discard_apply]
          rfl
      | instantiate | evaluate => rfl

/-- No URL is asked for twice, whatever the answer was. A call asks only for the URLs of what its
module leads to, in the import graph of the fetcher that gives the answers, and it asks for nothing
unless it loads. What is on the list is all that its library is asked for: with any library that
gives the same answers for these URLs the call does the same. The first call that loads a module
asks for the URLs of all that the module leads to, even if it fails; a module that is faulty itself
leads nowhere but to itself. -/
theorem Reached.fetches (hr : Reached h r) :
    r.catalog.fetched.Nodup ∧
    (∀ (library : Library) (execute : Executor σ) (call : Call) (fetch : Fetcher),
      (call.after { h with library, execute } r).catalog.AnsweredBy fetch →
      ∃ new, (call.after { h with library, execute } r).catalog.fetched =
          r.catalog.fetched ++ new ∧
        (∀ url ∈ new, call.isLoading ∧ ∃ key, call.key? h = some key ∧
          fetch.ReachesUrl h.importMap key url) ∧
        ∀ library' : Library, (∀ url ∈ new, library'.fetch url = library.fetch url) →
          call.after { h with library := library', execute } r =
            call.after { h with library, execute } r) ∧
    ∀ (host : σ) (library : Library) (execute : Executor σ) (call : Call) (key : ModuleKey),
      call.isLoading → call.key? h = some key →
      ∀ url, url ∈ (call.after { h with library, execute } (Realm.fresh host)).catalog.fetched ↔
        Fetcher.ReachesUrl h.importMap library.fetch key url := by
  refine ⟨hr.sound.once, fun library execute call fetch hfetch => ?_, ?_⟩
  -- what is new in the list is all the call can have asked, so that only this part of the library
  -- counts
  · obtain ⟨new, hnew, hwanted⟩ :=
      (asksFor_after (h := { h with library, execute }) call hr.sound hfetch).fetched
    refine ⟨new, hnew, hwanted, fun library' hagree => ?_⟩
    refine after_congr (h := { h with library, execute }) library' call hr.sound
      fun url hurl hold => ?_
    rw [hnew] at hurl
    exact hagree url ((List.mem_append.1 hurl).resolve_left hold)
  · intro host library execute call key hloads hkey url
    have hfresh : Reached h (Realm.fresh host) := .fresh host
    have hanswers := hfresh.answeredBy execute call (answeredBy_fresh host library.fetch)
    constructor
    · intro hurl
      obtain ⟨new, hnew, hwanted⟩ := (asksFor_after (h := { h with library, execute }) call
        hfresh.sound hanswers).fetched
      rw [hnew] at hurl
      obtain ⟨-, key', hkey', hreaches⟩ := hwanted url hurl
      obtain rfl := Option.some.inj (hkey.symm.trans hkey')
      exact hreaches
    · intro hreaches
      obtain ⟨m, hm, rfl⟩ := hreaches
      exact asked_after { h with library, execute } host hloads hkey m hm

/-- A host with four texts, of which `main.js` imports one that is not there. -/
def missingHost : Host Unit :=
  ⟨(fileKey "main.js").url, ImportMap.empty,
    .ofSources [((fileKey "main.js").url, "import './gone.js'; import './app.js';"),
      ((fileKey "app.js").url, "import './lib.js';"), ((fileKey "lib.js").url, ""),
      ((fileKey "lazy.js").url, "import './lib.js';")],
    fun _ host => (.ok (), host)⟩

/-- The realm that has tried to load `main.js`. -/
def missingRealm : Realm Unit :=
  (Call.loadKey (fileKey "main.js")).after missingHost (fresh ())

/-- The realm is reached by these calls. -/
theorem reached_missingRealm : Reached missingHost missingRealm :=
  .call missingHost.library missingHost.execute (.loadKey (fileKey "main.js")) (.fresh ())

/-- The realm in which `lazy.js` is loaded after that. -/
def lazyRealm : Realm Unit :=
  (Call.loadKey (fileKey "lazy.js")).after missingHost missingRealm

/-- A load that fails has asked for all that its module leads to, and the next one only for what is
new. -/
theorem fetches_missing :
    Reached missingHost missingRealm ∧
      missingRealm.map.status? (fileKey "main.js") = some .failed ∧
      missingRealm.catalog.fetched =
        ["main.js", "gone.js", "app.js", "lib.js"].map (fun name => (fileKey name).url) ∧
      (∀ url ∈ missingRealm.catalog.fetched,
        Fetcher.ReachesUrl ImportMap.empty missingHost.library.fetch (fileKey "main.js") url) ∧
      lazyRealm.catalog.fetched = missingRealm.catalog.fetched ++ [(fileKey "lazy.js").url] ∧
      ∃ new, lazyRealm.catalog.fetched = missingRealm.catalog.fetched ++ new ∧
        (∀ url ∈ new, (Call.loadKey (fileKey "lazy.js")).isLoading ∧
          ∃ key, (Call.loadKey (fileKey "lazy.js")).key? missingHost = some key ∧
            Fetcher.ReachesUrl ImportMap.empty missingHost.library.fetch key url) ∧
        ∀ library : Library, (∀ url ∈ new, library.fetch url = missingHost.library.fetch url) →
          (Call.loadKey (fileKey "lazy.js")).after { missingHost with library } missingRealm =
            lazyRealm := by
  obtain ⟨hfailed, hfetched, hlazy⟩ :
      missingRealm.map.status? (fileKey "main.js") = some .failed ∧
      missingRealm.catalog.fetched =
        ["main.js", "gone.js", "app.js", "lib.js"].map (fun name => (fileKey name).url) ∧
      lazyRealm.catalog.fetched =
        missingRealm.catalog.fetched ++ [(fileKey "lazy.js").url] := by
    decide +kernel
  have hanswered := answeredBy_afterAll missingHost ()
    [.loadKey (fileKey "main.js"), .loadKey (fileKey "lazy.js")]
  obtain ⟨-, hcalls, hfirst⟩ := reached_missingRealm.fetches
  have hmain := hfirst () missingHost.library missingHost.execute (.loadKey (fileKey "main.js"))
    (fileKey "main.js") rfl rfl
  exact ⟨reached_missingRealm, hfailed, hfetched, fun url => (hmain url).1, hlazy,
    hcalls missingHost.library missingHost.execute _ _ hanswered⟩

end ModuleGraph.Realm
