import ModuleGraph.Proofs.Frames
import ModuleGraph.Proofs.RealmEvaluation

/-!
# What a call may ask for and change

A call is about one module, and concerns only what this module leads to by requests. `Realm.Runs`
says how a realm goes from call to call and which modules the calls are about. `Runs.touches` says
what follows from it: each call moves only modules to which its own leads, and each of them from the
one status that the call is about; what has been found out of a module is never changed again.

A call is made of loading, instantiating and evaluating its module, in this order as far as it goes,
so that the statement for calls (`confined_after`) follows from those for the three.
-/

namespace ModuleGraph.Realm

variable {σ : Type} {h : Host σ} {r r' r'' : Realm σ} {keys : List ModuleKey} {key : ModuleKey}

namespace Call

/-- The module that a call is about, unless its specifier names none. -/
def key? (h : Host σ) : Call → Option ModuleKey
  | .load specifier | .importSpecifier specifier =>
    (resolveUrl h.importMap specifier h.base).toOption
  | .loadKey key | .importKey key | .instantiate key | .evaluate key => some key

/-- The call about a module that a call comes to when its specifier is resolved. -/
def keyed (key : ModuleKey) : Call → Call
  | .load _ | .loadKey _ => .loadKey key
  | .importSpecifier _ | .importKey _ => .importKey key
  | .instantiate _ => .instantiate key
  | .evaluate _ => .evaluate key

/-- Whether a call loads its module. -/
def isLoading : Call → Bool
  | .load _ | .loadKey _ | .importSpecifier _ | .importKey _ => true
  | .instantiate _ | .evaluate _ => false

/-- The statuses from which a call moves modules. -/
def movable : Call → List Status
  | .load _ | .loadKey _ => [.registered]
  | .instantiate _ => [.loaded]
  | .evaluate _ => [.instantiated]
  | .importSpecifier _ | .importKey _ => [.registered, .loaded, .instantiated]

/-- Resolving a specifier leaves the realm alone. -/
theorem run_resolve {α : Type} {specifier : String} {f : ModuleKey → RealmM σ α} {r : Realm σ}
    {h : Host σ} : (resolve h specifier >>= f) r =
      match resolveUrl h.importMap specifier h.base with
      | .ok key => f key r
      | .error fault => .error (.fault (.resolve fault)) r := by
  show EStateM.bind (resolve h specifier) f r = _
  unfold EStateM.bind resolve
  cases resolveUrl h.importMap specifier h.base <;> rfl

/-- A call whose specifier names no module does nothing. -/
theorem after_of_key?_eq_none {h : Host σ} {r : Realm σ} {call : Call} (hkey : call.key? h = none) :
    call.after h r = r := by
  have hresolve : ∀ {α : Type} {specifier : String} {f : ModuleKey → RealmM σ α},
      (resolveUrl h.importMap specifier h.base).toOption = none →
      Ends (resolve h specifier >>= f) r (fun _ r' => r' = r) fun _ r' => r' = r := by
    intro α specifier f hnone
    unfold Ends
    rw [run_resolve]
    cases hresult : resolveUrl h.importMap specifier h.base with
    | ok key => simp [hresult, Except.toOption] at hnone
    | error fault => rfl
  have hends : Ends (call.run h) r (fun _ => (· = r)) fun _ => (· = r) := by
    cases call with
    | load specifier => exact (hresolve hkey).discard
    | importSpecifier specifier => exact (hresolve hkey).discard
    | loadKey key | importKey key | instantiate key | evaluate key => cases hkey
  have hafter := after_of_ends hends
  exact hafter

/-- A call ends in the realm after it. -/
theorem ends_after (h : Host σ) (r : Realm σ) (call : Call) :
    Ends (call.run h) r (fun _ r' => r' = call.after h r) fun _ r' => r' = call.after h r := by
  unfold Ends after
  cases call.run h r <;> rfl

/-- A call by a specifier is one by the key that the specifier names. -/
theorem after_keyed {h : Host σ} {r : Realm σ} {call : Call} {key : ModuleKey}
    (hkey : call.key? h = some key) : call.after h r = (call.keyed key).after h r := by
  have hresolve : ∀ {α : Type} {specifier : String} {f : ModuleKey → RealmM σ α}
      {property : Realm σ → Prop},
      (resolveUrl h.importMap specifier h.base).toOption = some key →
      Ends (f key) r (fun _ => property) (fun _ => property) →
      Ends (resolve h specifier >>= f) r (fun _ => property) fun _ => property := by
    intro α specifier f property hsome hends
    unfold Ends
    rw [run_resolve]
    cases hresult : resolveUrl h.importMap specifier h.base with
    | ok key' =>
        obtain rfl : key' = key := by simpa [hresult, Except.toOption] using hsome
        exact hends
    | error fault => simp [hresult, Except.toOption] at hsome
  have hends : Ends (call.run h) r (fun _ => (· = (call.keyed key).after h r))
      fun _ => (· = (call.keyed key).after h r) := by
    cases call with
    | load specifier =>
        refine (hresolve hkey ?_).discard
        rw [ends_bind]
        exact ends_after h r (.loadKey key)
    | importSpecifier specifier =>
        refine (hresolve hkey ?_).discard
        exact ends_discard.1 (ends_after h r (.importKey key))
    | loadKey key' | importKey key' | instantiate key' | evaluate key' =>
        obtain rfl := Option.some.inj hkey
        exact ends_after h r _
  have hafter := after_of_ends hends
  exact hafter

end Call

/-- A realm goes on to another one by calls about some modules. As in `Reached`, each call has a
library and an executor of its own. -/
inductive Runs (h : Host σ) (r : Realm σ) : List ModuleKey → Realm σ → Prop
  | start : Runs h r [] r
  | call {keys : List ModuleKey} {r' : Realm σ} (library : Library) (execute : Executor σ)
      (call : Call) : Runs h r keys r' →
      Runs h r (keys ++ (call.key? h).toList) (call.after { h with library, execute } r')

/-- Calls lead on from a realm that calls lead to. -/
theorem Runs.reached (hr : Reached h r) (hruns : Runs h r keys r') : Reached h r' := by
  induction hruns with
  | start => exact hr
  | call library execute call _ ih => exact .call library execute call ih

/-- Whatever calls lead to, they lead to it about some modules. -/
theorem Reached.exists_runs (hr : Reached h r) : ∃ host keys, Runs h (Realm.fresh host) keys r := by
  induction hr with
  | fresh host => exact ⟨host, [], .start⟩
  | call library execute call _ ih =>
      obtain ⟨host, keys, hruns⟩ := ih
      exact ⟨host, _, .call library execute call hruns⟩

/-! ## What calls concern -/

variable {movable movable' : Status → Prop}

/-- What has happened to a realm concerns only what a module leads to, in the import graph of each
fetcher that gives the answers had by then. -/
def ConfinedTo (h : Host σ) (movable : Status → Prop) (key : ModuleKey) (r r' : Realm σ) : Prop :=
  ∀ fetch, r'.catalog.AnsweredBy fetch →
    r.catalog.Confined h.importMap fetch movable key r'.catalog

/-- Nothing has happened to a realm that is the same. -/
theorem ConfinedTo.refl : ConfinedTo h movable key r r :=
  fun _ _ => .refl

/-- What has moved from a status in which it may move has done so when it may move from more. -/
theorem ConfinedTo.mono (hr : ConfinedTo h movable key r r')
    (hmovable : ∀ status, movable status → movable' status) : ConfinedTo h movable' key r r' :=
  fun fetch hfetch => (hr fetch hfetch).mono hmovable

/-- What is confined in two steps is confined in both. -/
theorem ConfinedTo.trans (hr : ConfinedTo h movable key r r')
    (hr' : ConfinedTo h movable key r' r'') : ConfinedTo h movable key r r'' := by
  intro fetch hfetch
  have hlater := hr' fetch hfetch
  exact (hr fetch (hfetch.of_asksFor hlater.asks)).trans hlater

/-- A load moves only registered modules to which its own leads. -/
theorem ends_loadKey_confined (h : Host σ) (key : ModuleKey) (hr : r.catalog.Sound h.importMap) :
    Ends (loadKey h key) r (fun _ => ConfinedTo h (· = .registered) key r)
      fun _ => ConfinedTo h (· = .registered) key r := by
  refine (ends_loadKey_catalog (hr.ends_load_confined h.library key)).imp fun _ hend => ?_
  obtain ⟨c, hconfined, rfl⟩ := hend
  exact hconfined

/-- Instantiation moves only loaded modules to which its own leads. -/
theorem ends_instantiate_confined (h : Host σ) (key : ModuleKey)
    (hr : r.catalog.Sound h.importMap) :
    Ends (instantiate key) r (fun _ => ConfinedTo h (· = .loaded) key r)
      fun _ => ConfinedTo h (· = .loaded) key r := by
  refine (ends_instantiate_linked (r.map.ends_instantiate_moves r.rounds key)).imp fun _ hend => ?_
  obtain ⟨map, hmoves, rfl⟩ := hend
  exact fun fetch hfetch => hr.confined_of_moves hfetch hmoves

/-- Evaluation moves only instantiated modules to which its own leads. -/
theorem ends_evaluate_confined (h : Host σ) (key : ModuleKey) (hr : r.catalog.Sound h.importMap) :
    Ends (evaluate h key) r (fun _ => ConfinedTo h (· = .instantiated) key r)
      fun _ => ConfinedTo h (· = .instantiated) key r := by
  refine (ends_evaluate_walk h key hr).mono ?_ ?_
  · intro _ _ hend
    obtain ⟨e, hpassed, -, -, rfl⟩ := hend
    exact fun fetch hfetch => hr.confined_of_moves hfetch hpassed.inv.moves
  · intro _ _ hend
    obtain ⟨_, e, e', -, habandons, rfl⟩ := hend
    exact fun fetch hfetch => hr.confined_of_moves hfetch habandons.moves

/-- A step that concerns only what a module leads to may follow others that do. -/
theorem preserves_confined {α : Type} {x : RealmM σ α}
    (hx : ∀ r', r'.catalog.Sound h.importMap →
      Ends x r' (fun _ => ConfinedTo h movable key r') fun _ => ConfinedTo h movable key r')
    (hmovable : ∀ status, movable status → movable' status) :
    PreservesSoundly h (ConfinedTo h movable' key r) x := by
  intro r' hr' hconfined
  exact (hx r' hr').imp fun _ hlater => hconfined.trans (hlater.mono hmovable)

/-- Importing a module loads, instantiates and evaluates it, and all three concern only what it
leads to. -/
theorem preserves_importKey_confined (key : ModuleKey) :
    Preserves (fun r' => r'.catalog.Sound h.importMap ∧
      ConfinedTo h (· ∈ [.registered, .loaded, .instantiated]) key r r') (importKey h key) :=
  have hload : PreservesSoundly h
      (ConfinedTo h (· ∈ [.registered, .loaded, .instantiated]) key r) (loadKey h key) :=
    preserves_confined (fun _ hr' => ends_loadKey_confined h key hr') (by simp)
  have hinstantiate : PreservesSoundly h
      (ConfinedTo h (· ∈ [.registered, .loaded, .instantiated]) key r)
      (instantiate key : RealmM σ Instance) :=
    preserves_confined (fun _ hr' => ends_instantiate_confined h key hr') (by simp)
  have hevaluate : PreservesSoundly h
      (ConfinedTo h (· ∈ [.registered, .loaded, .instantiated]) key r) (evaluate h key) :=
    preserves_confined (fun _ hr' => ends_evaluate_confined h key hr') (by simp)
  (hload.preserves (keeps_loadKey key)).bind fun _ =>
    (hinstantiate.preserves (keeps_instantiate key)).bind fun i =>
      (hevaluate.preserves (keeps_evaluate key)).bind fun _ => .pure i

/-- A call concerns only what its module leads to, and moves modules from the statuses that it is
about. -/
theorem confined_after (call : Call) (hr : r.catalog.Sound h.importMap)
    (hkey : call.key? h = some key) :
    ConfinedTo h (· ∈ call.movable) key r (call.after h r) := by
  rw [Call.after_keyed hkey]
  cases call with
  | load | loadKey =>
      have hload : Ends ((Call.loadKey key).run h) r _ _ := ends_loadKey_confined h key hr
      exact (Call.after_of_ends hload).mono (by simp [Call.movable])
  | importSpecifier | importKey =>
      have himport : Ends ((Call.importKey key).run h) r _ _ :=
        (preserves_importKey_confined key r ⟨hr, .refl⟩).discard
      exact (Call.after_of_ends himport).2
  | instantiate =>
      have hinstantiate : Ends ((Call.instantiate key).run h) r _ _ :=
        (ends_instantiate_confined h key hr).discard
      exact (Call.after_of_ends hinstantiate).mono (by simp [Call.movable])
  | evaluate =>
      have hevaluate : Ends ((Call.evaluate key).run h) r _ _ := ends_evaluate_confined h key hr
      exact (Call.after_of_ends hevaluate).mono (by simp [Call.movable])

/-- Instantiating and evaluating ask for nothing. -/
theorem answers_after {call : Call} (hr : r.catalog.Sound h.importMap)
    (hloads : call.isLoading = false) : (call.after h r).catalog.answers = r.catalog.answers := by
  have hends : Ends (call.run h) r (fun _ => LosesNothing r) fun _ => LosesNothing r := by
    cases call with
    | load | loadKey | importSpecifier | importKey => cases hloads
    | instantiate key => exact (ends_instantiate_loses r key).discard
    | evaluate key => exact ends_evaluate_loses key hr
  exact (Call.after_of_ends hends).1

/-- What a call has asked for at its end. Only calls that load a module ask for anything. -/
theorem asksFor_after (call : Call) (hr : r.catalog.Sound h.importMap) {fetch : Fetcher}
    (hfetch : (call.after h r).catalog.AnsweredBy fetch) :
    r.catalog.AsksFor (fun url => call.isLoading ∧ ∃ key, call.key? h = some key ∧
      fetch.ReachesUrl h.importMap key url) (call.after h r).catalog := by
  cases hloads : call.isLoading with
  | false => exact .of_eq (answers_after hr hloads)
  | true =>
      cases hkey : call.key? h with
      | none => exact .of_eq (by rw [Call.after_of_key?_eq_none hkey])
      | some key =>
          refine (confined_after call hr hkey fetch hfetch).asks.mono fun url hurl => ?_
          exact ⟨rfl, key, rfl, hurl⟩

/-! ## What is moved and what is kept -/

/-- A call takes nothing back. -/
theorem lasts_after (call : Call) (hr : r.catalog.Sound h.importMap) :
    r.map.Lasts (call.after h r).map := by
  have hload : ∀ key, PreservesSoundly h (fun r' => r.map.Lasts r'.map) (loadKey h key) := by
    intro key r' hr' hlasts
    refine (ends_loadKey_loads h key hr').imp fun _ hend => ?_
    obtain ⟨c, hloads, rfl⟩ := hend
    exact hlasts.trans (hr'.lasts_loads hloads).1
  have hinstantiate : ∀ key, PreservesSoundly h (fun r' => r.map.Lasts r'.map)
      (instantiate key : RealmM σ Instance) := fun key r' _ hlasts =>
    (ends_instantiate_loses r' key).imp fun _ hend => hlasts.trans hend.2
  have hevaluate : ∀ key, PreservesSoundly h (fun r' => r.map.Lasts r'.map) (evaluate h key) :=
    fun key r' hr' hlasts => (ends_evaluate_loses key hr').imp fun _ hend => hlasts.trans hend.2
  exact ((PreservesSoundly.run hload hinstantiate hevaluate call).after ⟨hr, .refl⟩).2

/-- Nor do several calls. -/
theorem Runs.lasts (hr : Reached h r) (hruns : Runs h r keys r') : r.map.Lasts r'.map := by
  induction hruns with
  | start => exact .refl
  | call library execute call hruns ih =>
      exact ih.trans (lasts_after (h := { h with library, execute }) call (hruns.reached hr).sound)

/-- What has been found out of a module stays so after a call. -/
theorem retains_after (call : Call) (hr : r.catalog.Sound h.importMap) (m : ModuleKey) :
    (r.map.entry m).Retains ((call.after h r).map.entry m) :=
  have hkept := kept_after call hr
  hr.retains hkept.sound hkept.asks (lasts_after call hr) m

/-- What has been found out of a module is retained by all later calls. -/
theorem Runs.retains (hr : Reached h r) (hruns : Runs h r keys r') (m : ModuleKey) :
    (r.map.entry m).Retains (r'.map.entry m) := by
  induction hruns with
  | start => exact .refl
  | call library execute call hruns ih =>
      exact ih.trans (retains_after (h := { h with library, execute }) call
        (hruns.reached hr).sound m)

/-- What a call moves. -/
theorem moved_after (call : Call) (hr : r.catalog.Sound h.importMap) {fetch : Fetcher}
    (hfetch : (call.after h r).catalog.AnsweredBy fetch) (m : ModuleKey) :
    (r.map.entry m).Stays ((call.after h r).map.entry m) ∨
      (r.map.entry m).status ∈ call.movable ∧
        ∃ key, call.key? h = some key ∧ fetch.Reaches h.importMap key m := by
  cases hkey : call.key? h with
  | none => exact .inl (.of_eq (by rw [Call.after_of_key?_eq_none hkey]))
  | some key =>
      refine ((confined_after call hr hkey fetch hfetch).moved m).imp id fun hmoved => ?_
      exact ⟨hmoved.1, key, rfl, hmoved.2⟩

/-- A module to which no call's module leads is still registered. -/
theorem Runs.registered_of_not_reaches {host : σ} (hruns : Runs h (Realm.fresh host) keys r)
    {fetch : Fetcher} (hfetch : r.catalog.AnsweredBy fetch) {m : ModuleKey}
    (hm : ∀ key ∈ keys, ¬ fetch.Reaches h.importMap key m) :
    (r.map.entry m).status = .registered := by
  induction hruns with
  | start => rfl
  | @call keys r library execute call hruns ih =>
      have hsound := (hruns.reached (.fresh host)).sound
      have hasks := asksFor_after (h := { h with library, execute }) call hsound hfetch
      have hbefore : (r.map.entry m).status = .registered :=
        ih (hfetch.of_asksFor hasks) fun key hkey => hm key (List.mem_append_left _ hkey)
      rcases moved_after (h := { h with library, execute }) call hsound hfetch m with
        hstays | ⟨-, key, hkey, hreaches⟩
      · exact hstays.status_eq.trans hbefore
      · have hmem : key ∈ keys ++ (call.key? h).toList :=
          List.mem_append_right _ (Option.mem_toList.2 hkey)
        exact absurd hreaches (hm key hmem)

/-- A call moves only modules to which its own module leads, in the import graph of the fetcher that
gives the answers, and each of them from the one status that the call is about: loading moves what
is registered, instantiating what is loaded and evaluating what is instantiated, also if the call
fails. A module to which no call's module leads stays registered. The declaration, the dependencies,
the instance and the failure of a module are never changed once they are there. -/
theorem Runs.touches {host : σ} (hruns : Runs h (Realm.fresh host) keys r) :
    (∀ (library : Library) (execute : Executor σ) (call : Call) (fetch : Fetcher),
      (call.after { h with library, execute } r).catalog.AnsweredBy fetch → ∀ m,
        (r.map.entry m).Stays ((call.after { h with library, execute } r).map.entry m) ∨
          (r.map.entry m).status ∈ call.movable ∧
            ∃ key, call.key? h = some key ∧ fetch.Reaches h.importMap key m) ∧
    (∀ fetch, r.catalog.AnsweredBy fetch → ∀ m,
      (∀ key ∈ keys, ¬ Fetcher.Reaches h.importMap fetch key m) →
        (r.map.entry m).status = .registered) ∧
    ∀ keys' r', Runs h r keys' r' → ∀ m, (r.map.entry m).Retains (r'.map.entry m) := by
  have hr := hruns.reached (.fresh host)
  refine ⟨fun library execute call fetch hfetch m => ?_, fun fetch hfetch m hm => ?_,
    fun keys' r' hruns' m => hruns'.retains hr m⟩
  · exact moved_after (h := { h with library, execute }) call hr.sound hfetch m
  · exact hruns.registered_of_not_reaches hfetch hm

/-- The realm has loaded `main.js`. -/
theorem runs_partialRealm : Runs partialHost (fresh ()) [fileKey "main.js"] partialRealm :=
  .call partialHost.library partialHost.execute (.loadKey (fileKey "main.js")) .start

/-- The realm in which instantiating `main.js` has failed then. -/
def refusedRealm : Realm Unit :=
  (Call.instantiate (fileKey "main.js")).after partialHost partialRealm

/-- The realm goes on to the one in which `main.js` has failed. -/
theorem runs_refusedRealm : Runs partialHost partialRealm [fileKey "main.js"] refusedRealm :=
  .call partialHost.library partialHost.execute (.instantiate (fileKey "main.js")) .start

/-- Instantiating `main.js` in vain moves two loaded modules, and the third one stays. -/
theorem touches_partial :
    Runs partialHost (fresh ()) [fileKey "main.js"] partialRealm ∧
      refusedRealm.map.entries.map Entry.status = [.failed, .failed, .loaded] ∧
      (∀ m, (partialRealm.map.entry m).Stays (refusedRealm.map.entry m) ∨
        (partialRealm.map.entry m).status ∈ [Status.loaded] ∧
          ∃ key, some (fileKey "main.js") = some key ∧
            Fetcher.Reaches ImportMap.empty partialHost.library.fetch key m) ∧
      (∀ m, (∀ key ∈ [fileKey "main.js"],
        ¬ Fetcher.Reaches ImportMap.empty partialHost.library.fetch key m) →
          (partialRealm.map.entry m).status = .registered) ∧
      ∀ m, (partialRealm.map.entry m).Retains (refusedRealm.map.entry m) := by
  have hstatuses : refusedRealm.map.entries.map Entry.status = [.failed, .failed, .loaded] := by
    decide +kernel
  obtain ⟨hmoved, hregistered, hretains⟩ := runs_partialRealm.touches
  refine ⟨runs_partialRealm, hstatuses, ?_, ?_, fun m => ?_⟩
  · exact hmoved partialHost.library partialHost.execute (.instantiate (fileKey "main.js")) _
      (answeredBy_afterAll partialHost ()
        [.loadKey (fileKey "main.js"), .instantiate (fileKey "main.js")])
  · exact hregistered _ (answeredBy_afterAll partialHost () [.loadKey (fileKey "main.js")])
  · exact hretains _ _ runs_refusedRealm m

end ModuleGraph.Realm
