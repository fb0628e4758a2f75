import ModuleGraph.Proofs.Evaluation
import ModuleGraph.Realm

/-!
# Runs of a realm

A realm begins with nothing and goes from call to call. Each call may succeed or fail, and may find
another library and another executor than the one before: `Realm.Reached` says which realms come
about in this way. `Reached.sound` gives the invariant of them all. What it means is said by three
theorems:

* `Reached.dependencies_follow`: with a module, everything it depends on is known and has got as
  far, so that no import cycle is ever left in parts.
* `Reached.call_not_violation`: no call tries a step that a module cannot take, and none leaves a
  module loading.
* `Reached.loadKey_iff`: loading a module succeeds if and only if it leads to no faulty module.
-/

namespace ModuleGraph.Realm

/-- A call on a realm. -/
inductive Call where
  | load (specifier : String)
  | loadKey (key : ModuleKey)
  | importSpecifier (specifier : String)
  | importKey (key : ModuleKey)
  | instantiate (key : ModuleKey)
  | evaluate (key : ModuleKey)
deriving DecidableEq, Repr

namespace Call

variable {σ : Type}

/-- Makes the call. What it answers is left out. -/
def run (h : Host σ) : Call → RealmM σ Unit
  | .load specifier => discard (Realm.load h specifier)
  | .loadKey key => Realm.loadKey h key
  | .importSpecifier specifier => discard (Realm.importSpecifier h specifier)
  | .importKey key => discard (Realm.importKey h key)
  | .instantiate key => discard (Realm.instantiate key)
  | .evaluate key => Realm.evaluate h key

/-- The realm after the call, whether it has succeeded or failed. -/
def after (h : Host σ) (call : Call) (r : Realm σ) : Realm σ :=
  match call.run h r with
  | .ok _ r' => r'
  | .error _ r' => r'

/-- A call that succeeds leaves the realm that it ends in. -/
theorem after_of_ok {h : Host σ} {call : Call} {r r' : Realm σ} (hrun : call.run h r = .ok () r') :
    call.after h r = r' := by
  rw [after, hrun]

/-- A call that fails leaves the realm that it ends in. -/
theorem after_of_error {h : Host σ} {call : Call} {r r' : Realm σ} {halt : Halt RealmFault}
    (hrun : call.run h r = .error halt r') : call.after h r = r' := by
  rw [after, hrun]

/-- What holds whether the call succeeds or fails holds after it. -/
theorem after_of_ends {h : Host σ} {call : Call} {r : Realm σ} {property : Realm σ → Prop}
    (hends : Ends (call.run h) r (fun _ => property) fun _ => property) :
    property (call.after h r) := by
  cases hresult : call.run h r with
  | ok _ r' =>
      rw [after_of_ok hresult]
      exact hends.of_ok hresult
  | error halt r' =>
      rw [after_of_error hresult]
      exact hends.of_error hresult

end Call

variable {σ : Type} {h : Host σ} {r r' : Realm σ} {importMap : ImportMap}

/-- The realms that calls lead to. The address and the import map are those of the host, while each
call has a library and an executor of its own. -/
inductive Reached (h : Host σ) : Realm σ → Prop
  | fresh (host : σ) : Reached h (Realm.fresh host)
  | call {r : Realm σ} (library : Library) (execute : Executor σ) (call : Call) :
      Reached h r → Reached h (call.after { h with library, execute } r)

/-! ## What calls do -/

/-- Loading is a matter of the catalog. -/
theorem ends_loadKey_of {key : ModuleKey} {ok : Unit → Catalog → Prop}
    {error : Halt LoadFault → Catalog → Prop}
    (hload : Ends (Catalog.load h.importMap h.library key) r.catalog ok error) :
    Ends (loadKey h key) r (fun _ r' => ∃ c, ok () c ∧ r' = { r with catalog := c })
      fun halt r' => ∃ cause c, error cause c ∧ halt = cause.map .load ∧
        r' = { r with catalog := c } := by
  unfold Ends loadKey
  cases hresult : Catalog.load h.importMap h.library key r.catalog with
  | ok _ c => exact ⟨c, hload.of_ok hresult, rfl⟩
  | error cause c => exact ⟨cause, c, hload.of_error hresult, rfl, rfl⟩

/-- What holds of the catalog, whether the module is loaded or not. -/
theorem ends_loadKey_catalog {key : ModuleKey} {property : Catalog → Prop}
    (hload : Ends (Catalog.load h.importMap h.library key) r.catalog (fun _ => property)
      fun _ => property) :
    Ends (loadKey h key) r (fun _ r' => ∃ c, property c ∧ r' = { r with catalog := c })
      fun _ r' => ∃ c, property c ∧ r' = { r with catalog := c } := by
  refine (ends_loadKey_of hload).mono (fun _ _ hend => hend) fun _ _ hend => ?_
  obtain ⟨_, c, hc, -, hr'⟩ := hend
  exact ⟨c, hc, hr'⟩

/-- The realm after a call that instantiates. -/
def linked (r : Realm σ) (map : ModuleMap) : Realm σ :=
  { r.withMap map with rounds := r.rounds + 1 }

/-- Instantiating is a matter of the map. -/
theorem ends_instantiate_of {key : ModuleKey} {ok : Instance → ModuleMap → Prop}
    {error : Halt LinkFault → ModuleMap → Prop}
    (hinstantiate : Ends (ModuleMap.instantiate r.rounds key) r.map ok error) :
    Ends (instantiate key) r (fun i r' => ∃ map, ok i map ∧ r' = r.linked map)
      fun halt r' => ∃ cause map, error cause map ∧ halt = cause.map .link ∧
        r' = r.linked map := by
  unfold Ends instantiate
  cases hresult : ModuleMap.instantiate r.rounds key r.map with
  | ok i map => exact ⟨map, hinstantiate.of_ok hresult, rfl⟩
  | error cause map => exact ⟨cause, map, hinstantiate.of_error hresult, rfl, rfl⟩

/-- What holds of the map, whether it is instantiated or not. -/
theorem ends_instantiate_linked {key : ModuleKey} {property : ModuleMap → Prop}
    (h : Ends (ModuleMap.instantiate r.rounds key) r.map (fun _ => property) fun _ => property) :
    Ends (instantiate key) r (fun _ r' => ∃ map, property map ∧ r' = r.linked map)
      fun _ r' => ∃ map, property map ∧ r' = r.linked map := by
  refine (ends_instantiate_of h).mono (fun _ _ hend => hend) fun _ _ hend => ?_
  obtain ⟨_, map, hmap, -, hr'⟩ := hend
  exact ⟨map, hmap, hr'⟩

/-- The realm after a call that evaluates. -/
def evaluated (r : Realm σ) (e : Evaluator σ) : Realm σ :=
  { r.withMap e.map with ran := e.ran, host := e.host }

/-- Evaluating is a matter of the map and the executor. -/
theorem ends_evaluate_of {key : ModuleKey} {ok : Unit → Evaluator σ → Prop}
    {error : Halt EvalFault → Evaluator σ → Prop}
    (hevaluate : Ends (EvalM.run h.execute key) ⟨r.map, [], r.ran, r.host⟩ ok error) :
    Ends (evaluate h key) r (fun _ r' => ∃ e, ok () e ∧ r' = r.evaluated e)
      fun halt r' => ∃ cause e, error cause e ∧ halt = cause.map .eval ∧ r' = r.evaluated e := by
  unfold Ends evaluate
  cases hresult : EvalM.run h.execute key ⟨r.map, [], r.ran, r.host⟩ with
  | ok _ e => exact ⟨e, hevaluate.of_ok hresult, rfl⟩
  | error cause e => exact ⟨cause, e, hevaluate.of_error hresult, rfl, rfl⟩

/-! ## Calls keep realms sound -/

/-- A realm that is sound and has had no answers but from the host's library since another one. -/
structure Kept (h : Host σ) (r r' : Realm σ) : Prop where
  sound : r'.catalog.Sound h.importMap
  asks : r.catalog.Asks h.library r'.catalog

/-- Started in a sound realm, the computation ends in a sound one, with an answer or a fault. -/
def Keeps {α : Type} (h : Host σ) (x : RealmM σ α) : Prop :=
  ∀ r, r.catalog.Sound h.importMap → Ends x r (fun _ r' => Kept h r r')
    fun halt r' => (∃ fault, halt = .fault fault) ∧ Kept h r r'

/-- Giving an answer keeps realms sound. -/
theorem Keeps.pure {α : Type} (a : α) : Keeps h (pure a : RealmM σ α) :=
  fun _ hr => ⟨hr, .refl⟩

/-- Two computations, one after the other, keep realms sound if both do. -/
theorem Keeps.bind {α β : Type} {x : RealmM σ α} {f : α → RealmM σ β} (hx : Keeps h x)
    (hf : ∀ a, Keeps h (f a)) : Keeps h (x >>= f) := by
  intro r hr
  rw [ends_bind]
  refine (hx r hr).mono (fun a r₁ h₁ => ?_) fun _ _ hend => hend
  refine (hf a r₁ h₁.sound).mono (fun _ r₂ h₂ => ?_) ?_
  · exact ⟨h₂.sound, h₁.asks.trans h₂.asks⟩
  · rintro halt r₂ ⟨hfault, h₂⟩
    exact ⟨hfault, h₂.sound, h₁.asks.trans h₂.asks⟩

/-- Throwing away an answer keeps realms sound. -/
theorem Keeps.discard {α : Type} {x : RealmM σ α} (hx : Keeps h x) : Keeps h (discard x) := by
  intro r hr
  rw [ends_discard]
  exact hx r hr

/-- Loading a module is a load of the catalog, and nothing else. -/
theorem ends_loadKey_loads (h : Host σ) (key : ModuleKey) (hr : r.catalog.Sound h.importMap) :
    Ends (loadKey h key) r
      (fun _ r' => ∃ c, r.catalog.Loads h.library c ∧ r' = { r with catalog := c })
      fun _ r' => ∃ c, r.catalog.Loads h.library c ∧ r' = { r with catalog := c } := by
  refine ends_loadKey_catalog ((hr.ends_load h.library key).mono ?_ ?_)
  · intro _ c hend
    exact hend.2.1
  · intro _ c hend
    obtain ⟨-, -, -, hloads, -⟩ := hend
    exact hloads

/-- What loading a module does to a sound realm. -/
theorem ends_loadKey (h : Host σ) (key : ModuleKey) (hr : r.catalog.Sound h.importMap) :
    Ends (loadKey h key) r (fun _ r' => Kept h r r' ∧ (r'.map.entry key).isLoaded)
      fun halt r' => ∃ fault, halt = .fault (.load fault) ∧ Kept h r r' ∧
        (r'.map.entry key).failure = some (.load fault) := by
  refine (ends_loadKey_of (hr.ends_load h.library key)).mono ?_ ?_
  · rintro _ _ ⟨c, ⟨hsound, hloads, hloaded⟩, rfl⟩
    exact ⟨⟨hsound, hloads.asks⟩, hloaded⟩
  · rintro _ _ ⟨_, c, ⟨fault, rfl, hsound, hloads, hfailure⟩, rfl, rfl⟩
    exact ⟨fault, rfl, ⟨hsound, hloads.asks⟩, hfailure⟩

/-- A load keeps realms sound. -/
theorem keeps_loadKey (key : ModuleKey) : Keeps h (loadKey h key) := by
  intro r hr
  refine (ends_loadKey h key hr).mono (fun _ _ hend => hend.1) ?_
  rintro _ r' ⟨fault, rfl, hkept, -⟩
  exact ⟨⟨_, rfl⟩, hkept⟩

/-- Resolving a specifier keeps realms sound. -/
theorem keeps_resolve (specifier : String) : Keeps h (resolve h specifier) := by
  intro r hr
  unfold Ends resolve
  cases resolveUrl h.importMap specifier h.base with
  | ok key => exact ⟨hr, .refl⟩
  | error fault => exact ⟨⟨_, rfl⟩, hr, .refl⟩

/-- Instantiation keeps realms sound. -/
theorem keeps_instantiate (key : ModuleKey) : Keeps h (instantiate key) := by
  intro r hr
  refine (ends_instantiate_of (hr.ends_instantiate r.rounds key)).mono ?_ ?_
  · rintro _ _ ⟨map, hsound, rfl⟩
    exact ⟨hsound, .of_eq rfl⟩
  · rintro _ _ ⟨_, map, ⟨⟨fault, rfl⟩, hsound⟩, rfl, rfl⟩
    exact ⟨⟨_, rfl⟩, hsound, .of_eq rfl⟩

/-- Evaluation keeps realms sound. -/
theorem keeps_evaluate (key : ModuleKey) : Keeps h (evaluate h key) := by
  intro r hr
  refine (ends_evaluate_of (hr.ends_evaluate h.execute key r.ran r.host)).mono ?_ ?_
  · rintro _ _ ⟨e, hsound, rfl⟩
    exact ⟨hsound, .of_eq rfl⟩
  · rintro _ _ ⟨_, e, ⟨⟨fault, rfl⟩, hsound⟩, rfl, rfl⟩
    exact ⟨⟨_, rfl⟩, hsound, .of_eq rfl⟩

/-- An import keeps realms sound. -/
theorem keeps_importKey (key : ModuleKey) : Keeps h (importKey h key) :=
  (keeps_loadKey key).bind fun _ => (keeps_instantiate key).bind fun i =>
    (keeps_evaluate key).bind fun _ => .pure i

/-- Every call keeps realms sound. -/
theorem keeps_run (call : Call) : Keeps h (call.run h) := by
  cases call with
  | load specifier =>
      exact ((keeps_resolve specifier).bind fun key =>
        (keeps_loadKey key).bind fun _ => .pure key).discard
  | loadKey key => exact keeps_loadKey key
  | importSpecifier specifier => exact ((keeps_resolve specifier).bind keeps_importKey).discard
  | importKey key => exact (keeps_importKey key).discard
  | instantiate key => exact (keeps_instantiate key).discard
  | evaluate key => exact keeps_evaluate key

/-- The realm after a call is sound, with no answers but from the host's library besides those it
had. -/
theorem kept_after (call : Call) (hr : r.catalog.Sound h.importMap) :
    Kept h r (call.after h r) :=
  Call.after_of_ends ((keeps_run call r hr).mono (fun _ _ hkept => hkept) fun _ _ hend => hend.2)

/-- The invariant of a realm. -/
theorem Reached.sound (hr : Reached h r) : r.catalog.Sound h.importMap := by
  induction hr with
  | fresh host => exact .empty
  | @call r library execute call _ ih =>
      exact (kept_after (h := { h with library, execute }) call ih).sound

/-- If one library has given all answers, it is the fetcher of the realm, and it stays so. -/
theorem Reached.answeredBy (hr : Reached h r) (execute : Executor σ) (call : Call)
    {library : Library} (hfetch : r.catalog.AnsweredBy library.fetch) :
    (call.after { h with library, execute } r).catalog.AnsweredBy library.fetch :=
  hfetch.asks (kept_after (h := { h with library, execute }) call hr.sound).asks

/-- A fresh realm has had no answers, and so agrees with every fetcher. -/
theorem answeredBy_fresh (host : σ) (fetch : Fetcher) : (fresh host).catalog.AnsweredBy fetch := by
  intro url answer hanswer
  cases hanswer

/-- The realm after several calls of one host. -/
def Call.afterAll (h : Host σ) (calls : List Call) (r : Realm σ) : Realm σ :=
  calls.foldl (fun r call => call.after h r) r

/-- Calls lead on from a realm that calls lead to. -/
theorem Reached.afterAll (calls : List Call) (hr : Reached h r) :
    Reached h (Call.afterAll h calls r) := by
  induction calls generalizing r with
  | nil => exact hr
  | cons call calls ih => exact ih (.call h.library h.execute call hr)

/-- A host that makes all calls has its library as the fetcher of the realm. -/
theorem answeredBy_afterAll (h : Host σ) (host : σ) (calls : List Call) :
    (Call.afterAll h calls (fresh host)).catalog.AnsweredBy h.library.fetch := by
  suffices hrest : ∀ r, Reached h r → r.catalog.AnsweredBy h.library.fetch →
      (Call.afterAll h calls r).catalog.AnsweredBy h.library.fetch by
    exact hrest _ (.fresh host) (answeredBy_fresh host _)
  induction calls with
  | nil => exact fun r _ hfetch => hfetch
  | cons call calls ih =>
      intro r hr hfetch
      exact ih _ (.call h.library h.execute call hr) (hr.answeredBy h.execute call hfetch)

/-- The entries of a realm are those that its known keys have. -/
theorem Reached.mem_entries_iff (hr : Reached h r) {e : Entry} :
    e ∈ r.map.entries ↔ r.map.IsKnown e.key ∧ r.map.entry e.key = e := by
  refine (ModuleMap.mem_entries_iff hr.sound.distinct).trans ⟨fun he => ?_, ?_⟩
  · exact ⟨by simp [ModuleMap.IsKnown, map, he], ModuleMap.entry_of_get? he⟩
  · rintro ⟨hknown, hentry⟩
    exact (ModuleMap.get?_eq_some_entry hknown).trans (congrArg some hentry)

/-! ## An import cycle -/

/-- The address of a resource with an import cycle. -/
def cyclicUrl : Url :=
  ⟨"file", none, .segments ["cycle.js"], none, none⟩

instance : cyclicUrl.IsBare :=
  ⟨rfl⟩

/-- A body that imports one of two fragments. -/
def cyclicBody (name : String) : Body :=
  ⟨[.fragment name], [], [], [], [], [("a", ["a"]), ("b", ["b"])], ""⟩

/-- A resource whose fragments import each other. -/
def cyclicResource : Resource :=
  ⟨cyclicBody "a", [⟨some "a", ["a"], false, .importable, cyclicBody "b", ⟨0, 0⟩⟩,
    ⟨some "b", ["b"], false, .importable, cyclicBody "a", ⟨0, 0⟩⟩]⟩

/-- A host that knows this resource only, and whose executor never fails. -/
def cyclicHost : Host Unit :=
  ⟨cyclicUrl, ImportMap.empty, ⟨[(cyclicUrl, .ok cyclicResource)], fun url => .notFound url.text⟩,
    fun _ host => (.ok (), host)⟩

/-- The realm that has imported the resource. -/
def cyclicRealm : Realm Unit :=
  (Call.importKey ⟨cyclicUrl, []⟩).after cyclicHost (fresh ())

/-- The realm is reached by these calls. -/
theorem reached_cyclicRealm : Reached cyclicHost cyclicRealm :=
  .call cyclicHost.library cyclicHost.execute (.importKey ⟨cyclicUrl, []⟩) (.fresh ())

example : cyclicRealm.map.entries.map Entry.status = [.evaluated, .evaluated, .evaluated] := by
  decide +kernel

/-! ## What holds after every run -/

/-- With a module, everything it depends on is known and has got as far. An import cycle is
therefore loaded, instantiated and evaluated as a whole or not at all. -/
theorem Reached.dependencies_follow (hr : Reached h r) :
    (∀ e ∈ r.map.entries, ∀ d ∈ e.dependencies, ∃ e', r.map.get? d = some e' ∧
      (e.isLoaded → e'.isLoaded) ∧ (e.instance?.isSome → e'.instance?.isSome) ∧
      (e.status = .evaluated → e'.status = .evaluated)) ∧
    ∀ fetch, r.catalog.AnsweredBy fetch → ∀ a b, fetch.Reaches h.importMap a b →
      fetch.Reaches h.importMap b a →
      ((r.map.entry a).isLoaded ↔ (r.map.entry b).isLoaded) ∧
      ((r.map.entry a).instance?.isSome ↔ (r.map.entry b).instance?.isSome) ∧
      ((r.map.entry a).status = .evaluated ↔ (r.map.entry b).status = .evaluated) := by
  have hsound := hr.sound
  constructor
  · intro e he d hd
    obtain ⟨-, hentry⟩ := hr.mem_entries_iff.1 he
    rw [← hentry] at hd ⊢
    obtain ⟨hloaded, hinstance, hevaluated⟩ := hsound.dependency hd
    exact ⟨r.map.entry d, ModuleMap.get?_eq_some_entry (ModuleMap.isKnown_of_isLoaded hloaded),
      fun _ => hloaded, hinstance, hevaluated⟩
  · intro fetch hfetch a b hab hba
    obtain ⟨hloaded, hinstance, hevaluated⟩ := hsound.reaches hfetch hab
    obtain ⟨hloaded', hinstance', hevaluated'⟩ := hsound.reaches hfetch hba
    exact ⟨⟨hloaded, hloaded'⟩, ⟨hinstance, hinstance'⟩, ⟨hevaluated, hevaluated'⟩⟩

/-- In the realm with an import cycle each module has got as far as the other one. -/
theorem dependencies_follow_cyclic :
    Reached cyclicHost cyclicRealm ∧
      ∀ e ∈ cyclicRealm.map.entries, ∀ d ∈ e.dependencies, ∃ e',
        cyclicRealm.map.get? d = some e' ∧ (e.isLoaded → e'.isLoaded) ∧
        (e.instance?.isSome → e'.instance?.isSome) ∧
        (e.status = .evaluated → e'.status = .evaluated) :=
  ⟨reached_cyclicRealm, reached_cyclicRealm.dependencies_follow.1⟩

/-- No call tries a step that a module cannot take, and no call leaves a module loading. Each step
is possible at one status only, but for failing, which is possible until a module has been evaluated
or has failed. -/
theorem Reached.call_not_violation (hr : Reached h r) (library : Library) (execute : Executor σ)
    (call : Call) :
    (∀ violation r', call.run { h with library, execute } r ≠ .error (.violation violation) r') ∧
    (∀ e ∈ (call.after { h with library, execute } r).map.entries, e.status ≠ .loading) ∧
    ∀ (map : ModuleMap) (key : ModuleKey),
      ((map.markLoading key).isOk ↔ map.status? key = some .registered) ∧
      (∀ dependencies, (map.markLoaded key dependencies).isOk ↔
        map.status? key = some .loading) ∧
      (∀ i, (map.markInstantiated key i).isOk ↔ map.status? key = some .loaded) ∧
      ((map.markEvaluated key).isOk ↔ map.status? key = some .instantiated) ∧
      ∀ failure, (map.markFailed key failure).isOk ↔
        ∃ status, map.status? key = some status ∧ status ≠ .failed ∧ status ≠ .evaluated := by
  have hafter : Reached h (call.after { h with library, execute } r) :=
    .call library execute call hr
  refine ⟨?_, ?_, fun map key => ?_⟩
  · intro violation r' hresult
    have hrun := keeps_run (h := { h with library, execute }) call r hr.sound
    obtain ⟨⟨fault, hfault⟩, -⟩ := hrun.of_error hresult
    cases hfault
  · intro e he
    rw [← (hafter.mem_entries_iff.1 he).2]
    exact hafter.sound.idle e.key
  · exact ⟨ModuleMap.isOk_markLoading_iff, fun _ => ModuleMap.isOk_markLoaded_iff,
      fun _ => ModuleMap.isOk_markInstantiated_iff, ModuleMap.isOk_markEvaluated_iff,
      fun _ => ModuleMap.isOk_markFailed_iff⟩

/-- Evaluating a fragment of the cycle again takes no step that is not possible. -/
theorem call_not_violation_cyclic :
    Reached cyclicHost cyclicRealm ∧
      (∀ violation r', (Call.evaluate ⟨cyclicUrl, ["a"]⟩).run cyclicHost cyclicRealm ≠
        .error (.violation violation) r') ∧
      ∀ e ∈ ((Call.evaluate ⟨cyclicUrl, ["a"]⟩).after cyclicHost cyclicRealm).map.entries,
        e.status ≠ .loading := by
  obtain ⟨hviolation, hidle, -⟩ := reached_cyclicRealm.call_not_violation cyclicHost.library
    cyclicHost.execute (.evaluate ⟨cyclicUrl, ["a"]⟩)
  exact ⟨reached_cyclicRealm, hviolation, hidle⟩

/-- Loading a module succeeds if and only if it leads to no faulty module in the import graph of the
fetcher that gives the answers; by `answeredBy_afterAll` this is the library if there is but one. A
call that fails reports the fault of such a module, which has failed with just this fault. A load
that goes on without end, since its module leads to ever more modules, is outside `hfetch`: it comes
to no answers that could be those of the fetcher. -/
theorem Reached.loadKey_iff (hr : Reached h r) (library : Library) (key : ModuleKey)
    (fetch : Fetcher)
    (hfetch : ((Call.loadKey key).after { h with library } r).catalog.AnsweredBy fetch) :
    ((∃ r', loadKey { h with library } key r = .ok () r') ↔
      ∀ m, fetch.Reaches h.importMap key m → ¬ fetch.Faulty h.importMap m) ∧
    ∀ halt r', loadKey { h with library } key r = .error halt r' →
      ∃ fault e, halt = .fault (.load fault) ∧ fetch.Reaches h.importMap key fault.key ∧
        fetch.Faulty h.importMap fault.key ∧ r'.map.get? fault.key = some e ∧
        e.status = .failed ∧ e.failure = some (.load fault) := by
  have hload := ends_loadKey { h with library } key hr.sound
  cases hresult : loadKey { h with library } key r with
  | ok _ r' =>
      obtain ⟨hkept, hloaded⟩ := hload.of_ok hresult
      have hrun : (Call.loadKey key).run { h with library } r = .ok () r' := hresult
      rw [Call.after_of_ok hrun] at hfetch
      have hloads := hkept.sound.loads fetch hfetch
      refine ⟨⟨fun _ m hm => hloads.not_faulty_of_reaches hloaded hm, fun _ => ⟨r', rfl⟩⟩, ?_⟩
      rintro halt r'' ⟨⟩
  | error halt r' =>
      obtain ⟨fault, rfl, hkept, hfailure⟩ := hload.of_error hresult
      have hrun : (Call.loadKey key).run { h with library } r =
          .error (.fault (.load fault)) r' := hresult
      rw [Call.after_of_error hrun] at hfetch
      -- the record of the fault says that it is a real one, and reached from `key`
      obtain ⟨-, hfaulty, hreaches, hrecord⟩ :=
        (hkept.sound.loads fetch hfetch).failed key fault hfailure
      constructor
      · constructor
        · rintro ⟨r'', ⟨⟩⟩
        · intro hnone
          exact absurd hfaulty (hnone fault.key hreaches)
      · rintro halt r'' hend
        cases hend
        have hstatus : (r'.map.entry fault.key).status = .failed := by
          rw [Entry.status_eq_failed_iff]
          exact Option.isSome_iff_exists.2 ⟨_, hrecord⟩
        have hknown : r'.map.IsKnown fault.key :=
          ModuleMap.isKnown_of_status_ne (by rw [hstatus]; decide)
        exact ⟨fault, _, rfl, hreaches, hfaulty, ModuleMap.get?_eq_some_entry hknown, hstatus,
          hrecord⟩

/-- The resource with an import cycle is loaded, and leads to no faulty module. -/
theorem loadKey_iff_cyclic :
    (∃ r', loadKey cyclicHost ⟨cyclicUrl, []⟩ (fresh ()) = .ok () r') ∧
      ∀ m, Fetcher.Reaches ImportMap.empty cyclicHost.library.fetch ⟨cyclicUrl, []⟩ m →
        ¬ Fetcher.Faulty ImportMap.empty cyclicHost.library.fetch m := by
  have hfresh : Reached cyclicHost (fresh ()) := .fresh ()
  have hiff := (hfresh.loadKey_iff cyclicHost.library ⟨cyclicUrl, []⟩ cyclicHost.library.fetch
    (hfresh.answeredBy cyclicHost.execute _ (answeredBy_fresh () _))).1
  have hok : ∃ r', loadKey cyclicHost ⟨cyclicUrl, []⟩ (fresh ()) = .ok () r' := ⟨_, rfl⟩
  exact ⟨hok, hiff.1 hok⟩

end ModuleGraph.Realm
