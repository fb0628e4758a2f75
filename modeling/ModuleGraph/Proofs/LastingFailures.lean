import ModuleGraph.Proofs.RealmRequests

/-!
# Failures are final

A call that fails leaves its fault with its own module, and not only with the module at fault: the
walk fails all that leads to a load fault, the instantiation all that depends on the culprit, and
the evaluation all that still waits. What a module has failed with is never changed, so that the
same call fails in the same way from then on (`Realm.Reached.fails_again`), without asking for
anything and without running anything.
-/

namespace ModuleGraph

/-- A computation that cannot end but in one way ends in this way. -/
theorem Ends.eq_error {ε σ α : Type} {x : EStateM ε σ α} {s s' : σ} {e : ε}
    (h : Ends x s (fun _ _ => False) fun e' s'' => e' = e ∧ s'' = s') : x s = .error e s' := by
  unfold Ends at h
  split at h
  · exact h.elim
  · next hresult => rw [hresult, h.1, h.2]

/-- A load that has failed fails again. -/
theorem Catalog.load_of_failure {importMap : ImportMap} {library : Library} {c : Catalog}
    {key : ModuleKey} {fault : LoadFault} (hloaded : (c.map.entry key).isLoaded = false)
    (hfailure : (c.map.entry key).failure = some (.load fault)) :
    Catalog.load importMap library key c = .error (.fault fault) c := by
  have hsame : c.map.register key = c.map :=
    ModuleMap.register_of_isKnown (ModuleMap.isKnown_of_failure hfailure)
  have hfault : (c.map.entry key).loadFault? = some fault := by
    rw [Entry.loadFault?, hfailure]
  simp [Catalog.load, hsame, hloaded, hfault]

/-- An instantiation that has failed fails again. -/
theorem ModuleMap.instantiate_of_failure {map : ModuleMap} {round : Nat} {key : ModuleKey}
    {fault : LinkFault} (hinstance : (map.entry key).instance? = none)
    (hfailure : (map.entry key).failure = some (.link fault)) :
    ModuleMap.instantiate round key map = .error (.fault fault) map := by
  have hfault : map.linkFault? key = some fault := by
    rw [ModuleMap.linkFault?, ModuleMap.get?_eq_some_entry (ModuleMap.isKnown_of_failure hfailure)]
    simp [hinstance, hfailure]
  refine Ends.eq_error ?_
  unfold ModuleMap.instantiate
  rw [ends_bind, ends_get, hfault]
  exact ⟨rfl, rfl⟩

namespace EvalM

variable {σ : Type} {execute : Executor σ} {e : Evaluator σ} {key : ModuleKey} {fault : EvalFault}

/-- A walk that begins with a module that has failed goes nowhere. -/
theorem run_of_failure (hstack : e.stack = [])
    (hfailure : (e.map.entry key).failure = some (.eval fault)) :
    run execute key e = .error (.fault fault) e := by
  have hstatus : (e.map.entry key).status = .failed := by simp [hfailure]
  have hget := ModuleMap.get?_eq_some_entry (ModuleMap.isKnown_of_failure hfailure)
  refine Ends.eq_error ?_
  unfold run
  simp only [ends_tryCatch, ends_bind, ends_get, ends_discard]
  unfold visit
  rw [ends_bind, ends_get, hget]
  simp [hstatus, faultOf, hfailure, abandon, hstack]

/-- A walk that begins with a module that has been evaluated does not fail. -/
theorem ends_run_of_evaluated (hkey : (e.map.entry key).status = .evaluated) :
    Ends (run execute key) e (fun _ _ => True) fun _ _ => False := by
  have hget := ModuleMap.get?_eq_some_entry (ModuleMap.isKnown_of_isLoaded
    (Entry.isLoaded_of_instance (Entry.instance_isSome_of_evaluated hkey)))
  unfold run
  simp only [ends_tryCatch, ends_bind, ends_get, ends_discard]
  unfold visit
  rw [ends_bind, ends_get, hget]
  simp [hkey]

end EvalM

namespace Realm

variable {σ : Type} {h : Host σ} {r r₁ r₂ : Realm σ} {keys : List ModuleKey} {key : ModuleKey}
  {halt : Halt RealmFault}

/-! ## Failing once -/

/-- A load that fails leaves its fault with the module. -/
theorem failure_of_loadKey (hr : r.catalog.Sound h.importMap)
    (hfails : loadKey h key r = .error halt r₁) :
    ∃ fault, halt = .fault (.load fault) ∧ (r₁.map.entry key).failure = some (.load fault) := by
  obtain ⟨fault, rfl, -, hfailure⟩ := (ends_loadKey h key hr).of_error hfails
  exact ⟨fault, rfl, hfailure⟩

/-- So does an instantiation of a module that has been loaded. -/
theorem failure_of_instantiate (hr : r.catalog.Sound h.importMap) (hlink : r.map.LinkSound)
    (hloaded : (r.map.entry key).isLoaded) (hfails : instantiate key r = .error halt r₁) :
    ∃ fault, halt = .fault (.link fault) ∧ (r₁.map.entry key).failure = some (.link fault) := by
  have hends := ends_instantiate_of (hr.ends_instantiate_loaded hlink r.rounds hloaded)
  obtain ⟨cause, map, ⟨-, fault, _, _, rfl, -, hfailure⟩, rfl, rfl⟩ := hends.of_error hfails
  exact ⟨fault, rfl, hfailure⟩

/-! ## Failing again -/

/-- A load of a module that has failed to load does nothing but fail. -/
theorem loadKey_of_failure {fault : LoadFault} (hr : r.catalog.Sound h.importMap)
    (hfailure : (r.map.entry key).failure = some (.load fault)) :
    loadKey h key r = .error (.fault (.load fault)) r := by
  obtain ⟨fetch, hfetch⟩ := r.catalog.exists_answeredBy
  have hloaded := ((hr.loads fetch hfetch).raised key fault hfailure).1
  rw [loadKey, Catalog.load_of_failure hloaded hfailure]
  rfl

/-- An instantiation of a module that has failed to be linked does nothing but fail. -/
theorem instantiate_of_failure {fault : LinkFault} (hr : r.map.LinkSound)
    (hfailure : (r.map.entry key).failure = some (.link fault)) :
    instantiate key r = .error (.fault (.link fault)) (r.linked r.map) := by
  have hinstance := (hr.failed key fault hfailure).2.1
  rw [instantiate, ModuleMap.instantiate_of_failure hinstance hfailure]
  rfl

/-- An evaluation of a module that has failed to be evaluated does nothing but fail. -/
theorem evaluate_of_failure {fault : EvalFault}
    (hfailure : (r.map.entry key).failure = some (.eval fault)) :
    evaluate h key r = .error (.fault (.eval fault)) r := by
  rw [evaluate, EvalM.run_of_failure rfl hfailure]
  rfl

/-! ## Evaluating -/

/-- An evaluation of a module with an instance leaves its fault with the module. If the module can
be evaluated it waits until the walk is abandoned; otherwise it has failed in an earlier walk. -/
theorem failure_of_evaluate (hr : r.catalog.Sound h.importMap) (hlink : r.map.LinkSound)
    (hinstance : (r.map.entry key).instance?.isSome)
    (hfails : evaluate h key r = .error halt r₁) :
    ∃ fault, halt = .fault (.eval fault) ∧ (r₁.map.entry key).failure = some (.eval fault) := by
  cases hfailure : (r.map.entry key).failure with
  | some failure =>
      cases failure with
      | load fault =>
          have hloaded := Entry.isLoaded_of_instance hinstance
          exact absurd hfailure (hr.failure_of_isLoaded hloaded fault)
      | link fault =>
          have hnone := (hlink.failed key fault hfailure).2.1
          simp [hnone] at hinstance
      | eval fault =>
          rw [evaluate_of_failure hfailure] at hfails
          cases hfails
          exact ⟨fault, rfl, hfailure⟩
  | none =>
      have hprogress : (r.map.entry key).status = (r.map.entry key).progress.status := by
        simp [Entry.status, hfailure]
      cases hcase : (r.map.entry key).progress with
      -- an instance is there, so that `key` is instantiated or evaluated
      | registered | loading | loaded =>
          simp [Entry.instance?, hcase, Progress.instance?] at hinstance
      | instantiated dependencies i =>
          have hstatus : (r.map.entry key).status = .instantiated := by rw [hprogress, hcase]; rfl
          obtain ⟨fault, e, e', rfl, habandons, rfl⟩ :=
            (ends_evaluate_walk h key hr).of_error hfails
          refine ⟨fault, rfl, ?_⟩
          show (e'.map.entry key).failure = some (.eval fault)
          rw [habandons.altered.altered key (habandons.waits hstatus)]
      | evaluated dependencies i =>
          have hstatus : (r.map.entry key).status = .evaluated := by rw [hprogress, hcase]; rfl
          have hends := ends_evaluate_of (h := h) (EvalM.ends_run_of_evaluated
            (e := ⟨r.map, [], r.ran, r.host⟩) hstatus)
          obtain ⟨_, _, hfalse, -⟩ := hends.of_error hfails
          exact hfalse.elim

/-! ## For ever -/

/-- What a failed call leaves with a module is there whatever is called then. -/
theorem Runs.failure {library : Library} {execute : Executor σ} {call : Call}
    {failure : ModuleFailure} (hr : Reached h r)
    (hfails : call.run { h with library, execute } r = .error halt r₁)
    (hfailure : (r₁.map.entry key).failure = some failure) (hruns : Runs h r₁ keys r₂) :
    Reached h r₂ ∧ (r₂.map.entry key).failure = some failure := by
  have hreached : Reached h r₁ := Call.after_of_error hfails ▸ .call library execute call hr
  exact ⟨hruns.reached hreached, (hruns.lasts hreached).failures key failure hfailure⟩

/-- A call that has failed fails in the same way from then on, whatever is called in between:
loading a module, instantiating one that has been loaded, and evaluating one that has an instance.
Whatever the library and the executor are by then, it leaves the realm as it finds it, so that it
asks for nothing and runs nothing; only an instantiation is counted. -/
theorem Reached.fails_again (hr : Reached h r) (library : Library) (execute : Executor σ)
    (key : ModuleKey) (halt : Halt RealmFault) (r₁ : Realm σ) :
    (loadKey { h with library, execute } key r = .error halt r₁ →
      ∀ keys r₂, Runs h r₁ keys r₂ → ∀ (library' : Library) (execute' : Executor σ),
        loadKey { h with library := library', execute := execute' } key r₂ = .error halt r₂) ∧
    (r.map.isLoaded key → instantiate key r = .error halt r₁ →
      ∀ keys r₂, Runs h r₁ keys r₂ →
        instantiate key r₂ = .error halt { r₂ with rounds := r₂.rounds + 1 }) ∧
    ((r.instance? key).isSome → evaluate { h with library, execute } key r = .error halt r₁ →
      ∀ keys r₂, Runs h r₁ keys r₂ → ∀ (library' : Library) (execute' : Executor σ),
        evaluate { h with library := library', execute := execute' } key r₂ = .error halt r₂) := by
  refine ⟨fun hfails keys r₂ hruns library' execute' => ?_, fun hkey hfails keys r₂ hruns => ?_,
    fun hkey hfails keys r₂ hruns library' execute' => ?_⟩
  · obtain ⟨fault, rfl, hfailure⟩ :=
      failure_of_loadKey (h := { h with library, execute }) hr.sound hfails
    have hrun : (Call.loadKey key).run { h with library, execute } r = _ := hfails
    obtain ⟨hreached, hfailure'⟩ := Runs.failure hr hrun hfailure hruns
    exact loadKey_of_failure (h := { h with library := library', execute := execute' })
      hreached.sound hfailure'
  · rw [ModuleMap.isLoaded_eq] at hkey
    obtain ⟨fault, rfl, hfailure⟩ := failure_of_instantiate hr.sound hr.linkSound hkey hfails
    have hrun : (Call.instantiate key).run { h with library, execute } r =
        .error (.fault (.link fault)) r₁ := by
      rw [Call.run, discard_apply, hfails]
    obtain ⟨hreached, hfailure'⟩ := Runs.failure hr hrun hfailure hruns
    exact instantiate_of_failure hreached.linkSound hfailure'
  · rw [instance?, ModuleMap.instance?_eq] at hkey
    obtain ⟨fault, rfl, hfailure⟩ := failure_of_evaluate (h := { h with library, execute })
      hr.sound hr.linkSound hkey hfails
    have hrun : (Call.evaluate key).run { h with library, execute } r = _ := hfails
    obtain ⟨-, hfailure'⟩ := Runs.failure hr hrun hfailure hruns
    exact evaluate_of_failure hfailure'

/-- The fault of a call that fails. -/
def haltOf {α : Type} : EStateM.Result (Halt RealmFault) (Realm σ) α → Option (Halt RealmFault)
  | .ok _ _ => none
  | .error halt _ => some halt

/-- A call with a fault fails and leaves some realm behind. -/
theorem exists_error_of_haltOf {α : Type} {x : RealmM σ α} (h : haltOf (x r) = some halt) :
    ∃ r', x r = .error halt r' := by
  unfold haltOf at h
  split at h
  · cases h
  · next r' hresult => exact ⟨r', hresult.trans (by rw [Option.some.inj h])⟩

/-- A host with three texts: `main.js` imports a text that is not there, and `app.js` a name that
`lib.js` does not export. No body comes to its end. -/
def failingHost : Host Unit :=
  ⟨(fileKey "main.js").url, ImportMap.empty,
    .ofSources [((fileKey "main.js").url, "import './gone.js';"),
      ((fileKey "app.js").url, "import { x } from './lib.js';"),
      ((fileKey "lib.js").url, "export const y = 1;")],
    fun x host => (.error (.thrown x.key "down"), host)⟩

/-- The realm that has loaded `app.js` and instantiated `lib.js`. -/
def failingRealm : Realm Unit :=
  Call.afterAll failingHost [.loadKey (fileKey "app.js"), .instantiate (fileKey "lib.js")]
    (fresh ())

/-- The realm is reached by these calls. -/
theorem reached_failingRealm : Reached failingHost failingRealm :=
  .afterAll _ (.fresh ())

/-- The faults of `main.js`, `app.js` and `lib.js`. -/
def failingHalts : Halt RealmFault × Halt RealmFault × Halt RealmFault :=
  (.fault (.load ⟨fileKey "gone.js", .resource (.fetch (.notFound (fileKey "gone.js").url.text))⟩),
    .fault (.link (.unresolved .missing (fileKey "app.js") (fileKey "lib.js") "x")),
    .fault (.eval (.thrown (fileKey "lib.js") "down")))

/-- In the failing realm a load, an instantiation and an evaluation fail, and fail alike after all
later calls. -/
theorem fails_again_each :
    Reached failingHost failingRealm ∧ failingRealm.map.isLoaded (fileKey "app.js") ∧
      (failingRealm.instance? (fileKey "lib.js")).isSome ∧
      (∃ r₁, loadKey failingHost (fileKey "main.js") failingRealm = .error failingHalts.1 r₁ ∧
        ∀ keys r₂, Runs failingHost r₁ keys r₂ →
          loadKey failingHost (fileKey "main.js") r₂ = .error failingHalts.1 r₂) ∧
      (∃ r₁, instantiate (fileKey "app.js") failingRealm = .error failingHalts.2.1 r₁ ∧
        ∀ keys r₂, Runs failingHost r₁ keys r₂ → instantiate (fileKey "app.js") r₂ =
          .error failingHalts.2.1 { r₂ with rounds := r₂.rounds + 1 }) ∧
      ∃ r₁, evaluate failingHost (fileKey "lib.js") failingRealm = .error failingHalts.2.2 r₁ ∧
        ∀ keys r₂, Runs failingHost r₁ keys r₂ →
          evaluate failingHost (fileKey "lib.js") r₂ = .error failingHalts.2.2 r₂ := by
  obtain ⟨happ, hlib, hload, hinstantiate, hevaluate⟩ :
      failingRealm.map.isLoaded (fileKey "app.js") ∧
      (failingRealm.instance? (fileKey "lib.js")).isSome ∧
      haltOf (loadKey failingHost (fileKey "main.js") failingRealm) = some failingHalts.1 ∧
      haltOf (instantiate (fileKey "app.js") failingRealm) = some failingHalts.2.1 ∧
      haltOf (evaluate failingHost (fileKey "lib.js") failingRealm) = some failingHalts.2.2 := by
    decide +kernel
  obtain ⟨r₁, hload⟩ := exists_error_of_haltOf hload
  obtain ⟨r₂, hinstantiate⟩ := exists_error_of_haltOf hinstantiate
  obtain ⟨r₃, hevaluate⟩ := exists_error_of_haltOf hevaluate
  have hagain := reached_failingRealm.fails_again failingHost.library failingHost.execute
  refine ⟨reached_failingRealm, happ, hlib, ⟨r₁, hload, fun keys r hruns => ?_⟩,
    ⟨r₂, hinstantiate, fun keys r hruns => ?_⟩, r₃, hevaluate, fun keys r hruns => ?_⟩
  · exact (hagain _ _ _).1 hload keys r hruns failingHost.library failingHost.execute
  · exact (hagain _ _ _).2.1 happ hinstantiate keys r hruns
  · exact (hagain _ _ _).2.2 hlib hevaluate keys r hruns failingHost.library failingHost.execute

end Realm

end ModuleGraph
