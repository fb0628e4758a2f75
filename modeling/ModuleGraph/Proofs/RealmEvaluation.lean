import ModuleGraph.Proofs.LastingProgress
import ModuleGraph.Proofs.Observation
import ModuleGraph.Proofs.RealmLinking

/-!
# The order in which a realm runs bodies

`Realm.Reached.runs_once` says which bodies a realm has run: each module that has been evaluated,
exactly once, and some that have failed, at most once. `Realm.Reached.runs_when_due` says when: the
body of a module is run after all that its dependencies lead to, but for dependencies that lead back
to the module. An executor that takes notes sees the same: what a realm says that it has run is what
its executors were given (`Realm.TakesNotes.ran_eq`).
-/

namespace ModuleGraph

namespace EvalM

variable {σ : Type} {s e : Evaluator σ} {root k : ModuleKey}

/-- What has been run since the walk began had neither been evaluated nor failed before. -/
theorem Inv.before_of_mem_runs (h : Inv s root e) (hk : k ∈ runs s e) :
    (s.map.entry k).status ≠ .evaluated ∧ (s.map.entry k).status ≠ .failed := by
  obtain ⟨hbefore, hnow⟩ := h.outcome k hk
  refine ⟨hbefore, fun hfailed => ?_⟩
  have hunfailed : (e.map.entry k).failure = none := by
    rcases hnow with hevaluated | hwaits
    · exact (Entry.status_eq_evaluated_iff.1 hevaluated).1
    · exact (Entry.status_eq_instantiated_iff.1 (h.waiting k hwaits)).1
  rw [Entry.status_eq_failed_iff, ← h.failures, hunfailed] at hfailed
  cases hfailed

/-- A walk that succeeds has run what the module leads to and had not been evaluated before. -/
theorem Inv.mem_runs_iff (h : Inv s root e) (hroot : Evaluated e root) :
    k ∈ runs s e ↔ s.map.DependsOn root k ∧ (s.map.entry k).status ≠ .evaluated := by
  constructor
  · intro hk
    exact ⟨h.reached k (.inr hk), (h.before_of_mem_runs hk).1⟩
  · intro hk
    obtain ⟨hdepends, hbefore⟩ := hk
    exact (h.evaluated k (h.evaluated_of_dependsOn hroot hdepends)).resolve_left hbefore

end EvalM

/-- The modules of a map that have been run, in their order: all that have been evaluated, and no
others but some that have failed. -/
structure ModuleMap.Accounts (map : ModuleMap) (ran : List ModuleKey) : Prop where
  nodup : ran.Nodup
  outcome : ∀ k ∈ ran, (map.entry k).status = .evaluated ∨ (map.entry k).status = .failed
  evaluated : ∀ k, (map.entry k).status = .evaluated → k ∈ ran

namespace ModuleMap.Accounts

variable {map map' : ModuleMap} {ran : List ModuleKey}

/-- Nothing changes as long as nothing is evaluated. -/
theorem lasts (h : map.Accounts ran) (hlasts : map.Lasts map')
    (hnothing : map.EvaluatesNothing map') : map'.Accounts ran where
  nodup := h.nodup
  outcome k hk := (h.outcome k hk).imp (hlasts.evaluated k) hlasts.failed
  evaluated k hk := h.evaluated k (hnothing k hk)

/-- What a walk runs has not been run before. -/
theorem nodup_walk {σ : Type} {s e : Evaluator σ} {root : ModuleKey}
    (h : s.map.Accounts s.ran) (hinv : EvalM.Inv s root e) : e.ran.Nodup := by
  rw [hinv.ran]
  refine List.nodup_append.2 ⟨h.nodup, hinv.once, fun a ha b hb hab => ?_⟩
  obtain ⟨hevaluated, hfailed⟩ := hinv.before_of_mem_runs (hab ▸ hb)
  exact (h.outcome a ha).elim hevaluated hfailed

/-- When a walk stops, what still waits has been run or has not, and all else that has been run is
settled. -/
theorem outcome_walk {σ : Type} {s e : Evaluator σ} {root k : ModuleKey}
    (h : s.map.Accounts s.ran) (hinv : EvalM.Inv s root e) (hk : k ∈ e.ran)
    (hwaits : k ∉ e.stack) :
    (e.map.entry k).status = .evaluated ∨ (e.map.entry k).status = .failed := by
  rw [hinv.ran] at hk
  rcases List.mem_append.1 hk with hk | hk
  · exact (h.outcome k hk).imp (hinv.lasts.evaluated k) hinv.lasts.failed
  · exact .inl ((hinv.outcome k hk).2.resolve_right hwaits)

/-- What has been evaluated behind a walk has been run before it or by it. -/
theorem evaluated_walk {σ : Type} {s e : Evaluator σ} {root k : ModuleKey}
    (h : s.map.Accounts s.ran) (hinv : EvalM.Inv s root e)
    (hk : (e.map.entry k).status = .evaluated) : k ∈ e.ran := by
  rw [hinv.ran]
  rcases hinv.evaluated k hk with hbefore | hrun
  · exact List.mem_append_left _ (h.evaluated k hbefore)
  · exact List.mem_append_right _ hrun

end ModuleMap.Accounts

namespace Realm

variable {σ : Type} {h : Host σ} {r : Realm σ}

/-- A call that evaluates runs some bodies, each when it is due, and settles all that it has run. -/
theorem accounts_evaluated {key : ModuleKey} {e e' : Evaluator σ} {fault : EvalFault}
    (hr : r.map.Accounts r.ran)
    (h : EvalM.Abandons ⟨r.map, [], r.ran, r.host⟩ h.execute key fault e e') :
    e'.map.Accounts e'.ran := by
  have hinv := h.inv
  rw [h.ran]
  constructor
  case nodup => exact hr.nodup_walk hinv
  case outcome =>
    intro k hk
    by_cases hwaits : k ∈ e.stack
    · right
      rw [h.altered.altered k hwaits]
      simp
    · rw [h.altered.kept k hwaits]
      exact hr.outcome_walk hinv hk hwaits
  case evaluated => exact fun k hk => hr.evaluated_walk hinv (h.fails.reflected k hk)

/-- A load runs nothing and evaluates nothing. -/
theorem preserves_accounts_loadKey (key : ModuleKey) :
    PreservesSoundly h (fun r => r.map.Accounts r.ran) (loadKey h key) := by
  intro r hr haccounts
  refine (ends_loadKey_loads h key hr).imp fun _ hend => ?_
  obtain ⟨c, hloads, rfl⟩ := hend
  obtain ⟨hlasts, hnothing⟩ := hr.lasts_loads hloads
  exact haccounts.lasts hlasts hnothing

/-- Instantiation runs nothing and evaluates nothing. -/
theorem preserves_accounts_instantiate (key : ModuleKey) :
    PreservesSoundly h (fun r => r.map.Accounts r.ran)
      (instantiate key : RealmM σ Instance) := by
  intro r _ haccounts
  refine (ends_instantiate_linked (r.map.ends_instantiate_lasts r.rounds key)).imp fun _ hend => ?_
  obtain ⟨map, ⟨hlasts, hnothing⟩, rfl⟩ := hend
  exact haccounts.lasts hlasts hnothing

/-- What a call that evaluates does to a sound realm: it walks, and then nothing waits or all that
waits fails. -/
theorem ends_evaluate_walk (h : Host σ) (key : ModuleKey) (hr : r.catalog.Sound h.importMap) :
    Ends (evaluate h key) r
      (fun _ r' => ∃ e, EvalM.Passed ⟨r.map, [], r.ran, r.host⟩ h.execute key
          ⟨r.map, [], r.ran, r.host⟩ e ∧ e.stack = [] ∧ EvalM.Evaluated e key ∧
        r' = r.evaluated e)
      fun halt r' => ∃ fault e e', halt = .fault (.eval fault) ∧
        EvalM.Abandons ⟨r.map, [], r.ran, r.host⟩ h.execute key fault e e' ∧
        r' = r.evaluated e' := by
  refine (ends_evaluate_of (EvalM.ends_run h.execute key rfl hr.evaluations)).mono ?_ ?_
  · rintro _ r' ⟨e, ⟨hpassed, hstack, hkey⟩, rfl⟩
    exact ⟨e, hpassed, hstack, hkey, rfl⟩
  · rintro _ r' ⟨_, e', ⟨fault, e, rfl, habandons⟩, rfl, rfl⟩
    exact ⟨fault, e, e', rfl, habandons, rfl⟩

/-- A realm has come from another one with the same answers and without loss. -/
def LosesNothing (r r' : Realm σ) : Prop :=
  r'.catalog.answers = r.catalog.answers ∧ r.map.Lasts r'.map

/-- Instantiation loses nothing and asks for nothing. -/
theorem ends_instantiate_loses (r : Realm σ) (key : ModuleKey) :
    Ends (instantiate key) r (fun _ => LosesNothing r) fun _ => LosesNothing r := by
  refine (ends_instantiate_linked (r.map.ends_instantiate_lasts r.rounds key)).imp fun _ hend => ?_
  obtain ⟨map, ⟨hlasts, -⟩, rfl⟩ := hend
  exact ⟨rfl, hlasts⟩

/-- Evaluation loses nothing and asks for nothing. -/
theorem ends_evaluate_loses (key : ModuleKey) (hr : r.catalog.Sound h.importMap) :
    Ends (evaluate h key) r (fun _ => LosesNothing r) fun _ => LosesNothing r := by
  refine (ends_evaluate_walk h key hr).mono ?_ ?_
  · rintro _ _ ⟨e, hpassed, -, -, rfl⟩
    exact ⟨rfl, hpassed.inv.lasts⟩
  · rintro _ _ ⟨fault, e, e', -, habandons, rfl⟩
    exact ⟨rfl, habandons.inv.lasts.trans habandons.fails.lasts⟩

/-- Evaluation accounts for what it runs. -/
theorem preserves_accounts_evaluate (key : ModuleKey) :
    PreservesSoundly h (fun r => r.map.Accounts r.ran) (evaluate h key) := by
  intro r hr haccounts
  refine (ends_evaluate_walk h key hr).mono ?_ ?_
  · rintro _ _ ⟨e, ⟨hinv, -⟩, hstack, -, rfl⟩
    exact ⟨haccounts.nodup_walk hinv,
      fun k hk => haccounts.outcome_walk hinv hk (by simp [hstack]),
      fun k hk => haccounts.evaluated_walk hinv hk⟩
  · rintro _ _ ⟨fault, e, e', -, habandons, rfl⟩
    exact accounts_evaluated haccounts habandons

/-- A realm accounts for all modules that it has run. -/
theorem Reached.accounts (hr : Reached h r) : r.map.Accounts r.ran :=
  hr.induction (fun r => r.map.Accounts r.ran)
    (fun _ => ⟨List.nodup_nil, by simp [Realm.fresh], fun k hk => by cases hk⟩)
    (fun _ _ => preserves_accounts_loadKey) (fun _ _ => preserves_accounts_instantiate)
    fun _ _ => preserves_accounts_evaluate

/-! ## What is run -/

/-- No module is run twice, whatever the executor answers and in whatever order modules are
evaluated. What has been run has been evaluated or has failed, and all that has been evaluated has
been run. Evaluating a module, if it succeeds, runs what it leads to as far as it has not been
evaluated before, and nothing else. -/
theorem Reached.runs_once (hr : Reached h r) :
    r.ran.Nodup ∧
    (∀ k ∈ r.ran, r.map.status? k = some .evaluated ∨ r.map.status? k = some .failed) ∧
    (∀ k, r.map.status? k = some .evaluated → r.ran.count k = 1) ∧
    ∀ (library : Library) (execute : Executor σ) (key : ModuleKey) (r' : Realm σ),
      evaluate { h with library, execute } key r = .ok () r' →
      ∃ new, r'.ran = r.ran ++ new ∧
        (∀ m, m ∈ new ↔ r.map.DependsOn key m ∧ r.map.status? m ≠ some .evaluated) ∧
        ∀ m, r.map.DependsOn key m → r'.map.status? m = some .evaluated := by
  have haccounts := hr.accounts
  have hevaluated : ∀ (map : ModuleMap) k, map.status? k = some .evaluated ↔
      (map.entry k).status = .evaluated := fun _ _ => ModuleMap.status?_eq_some_iff (by simp)
  have hfailed : ∀ k, r.map.status? k = some .failed ↔ (r.map.entry k).status = .failed :=
    fun _ => ModuleMap.status?_eq_some_iff (by simp)
  simp only [ne_eq, hevaluated, hfailed]
  refine ⟨haccounts.nodup, haccounts.outcome, fun k hk => ?_, ?_⟩
  · exact List.count_eq_one_of_mem haccounts.nodup (haccounts.evaluated k hk)
  · intro library execute key r' hresult
    have hends := ends_evaluate_walk { h with library, execute } key hr.sound
    obtain ⟨e, ⟨hinv, -⟩, -, hkey, rfl⟩ := hends.of_ok hresult
    refine ⟨_, hinv.ran, fun m => hinv.mem_runs_iff hkey, fun m hm => ?_⟩
    exact hinv.evaluated_of_dependsOn hkey hm

/-- The realm that has evaluated one of two fragments which import each other. -/
def fragmentRealm : Realm Unit :=
  Call.afterAll cyclicHost
    [.loadKey ⟨cyclicUrl, []⟩, .instantiate ⟨cyclicUrl, []⟩, .evaluate ⟨cyclicUrl, ["a"]⟩]
    (fresh ())

/-- The realm is reached by these calls. -/
theorem reached_fragmentRealm : Reached cyclicHost fragmentRealm :=
  .afterAll _ (.fresh ())

/-- Whether evaluating the whole resource then succeeds. -/
def fragmentAnswer : Bool :=
  match evaluate cyclicHost ⟨cyclicUrl, []⟩ fragmentRealm with
  | .ok _ _ => true
  | .error _ _ => false

/-- Evaluating the whole resource runs what is left of it, and none of the fragments again. -/
theorem runs_once_fragment :
    Reached cyclicHost fragmentRealm ∧
      fragmentRealm.ran = [⟨cyclicUrl, ["b"]⟩, ⟨cyclicUrl, ["a"]⟩] ∧
      ∃ r', evaluate cyclicHost ⟨cyclicUrl, []⟩ fragmentRealm = .ok () r' ∧
        ∃ new, r'.ran = fragmentRealm.ran ++ new ∧
          (∀ m, m ∈ new ↔ fragmentRealm.map.DependsOn ⟨cyclicUrl, []⟩ m ∧
            fragmentRealm.map.status? m ≠ some .evaluated) ∧
          ∀ m, fragmentRealm.map.DependsOn ⟨cyclicUrl, []⟩ m →
            r'.map.status? m = some .evaluated := by
  obtain ⟨hran, hanswer⟩ : fragmentRealm.ran = [⟨cyclicUrl, ["b"]⟩, ⟨cyclicUrl, ["a"]⟩] ∧
      fragmentAnswer = true := by
    decide +kernel
  unfold fragmentAnswer at hanswer
  split at hanswer
  · next r' hresult =>
      obtain ⟨-, -, -, hruns⟩ := reached_fragmentRealm.runs_once
      exact ⟨reached_fragmentRealm, hran, r', hresult,
        hruns cyclicHost.library cyclicHost.execute _ r' hresult⟩
  · cases hanswer

/-! ## When it is run -/

/-- Modules that have been run, each with the map as it was then. -/
abbrev Notes := List (ModuleKey × ModuleMap)

end Realm

/-- The executor that also notes each module that it runs, with the map as it is then. -/
def Executor.noting {σ : Type} (execute : Executor σ) : Executor (σ × Realm.Notes) :=
  fun x host =>
    let (result, state) := execute x host.1
    (result, state, host.2 ++ [(x.key, x.map)])

namespace Realm

/-- A call does the same whether notes are taken or not. -/
theorem after_noting {σ : Type} (h : Host (σ × Notes)) (execute : Executor σ) (call : Call)
    (r : Realm (σ × Notes)) :
    (call.after { h with execute := execute.noting } r).mapHost Prod.fst =
      call.after (h.withExecutor execute) (r.mapHost Prod.fst) :=
  Call.after_mapHost (fun _ _ => rfl) call r

/-- Modules have been run one after the other, after those of `ran`, and each when it was due. -/
def RunInOrder : (ran : List ModuleKey) → Notes → Prop
  | _, [] => True
  | ran, (m, map) :: notes => map.Due (· ∈ ran) m ∧ RunInOrder (ran ++ [m]) notes

/-- Modules are run in order if the first of them are, and the others behind them. -/
theorem runInOrder_append {ran : List ModuleKey} {notes notes' : Notes} :
    RunInOrder ran (notes ++ notes') ↔
      RunInOrder ran notes ∧ RunInOrder (ran ++ notes.map Prod.fst) notes' := by
  induction notes generalizing ran with
  | nil => simp [RunInOrder]
  | cons note notes ih =>
      obtain ⟨m, map⟩ := note
      rw [List.cons_append, RunInOrder, RunInOrder, ih, and_assoc]
      simp

/-- What has been noted while modules were run one after the other. -/
structure Noted (ran : List ModuleKey) (notes : Notes) (ran' : List ModuleKey) (notes' : Notes)
    (new : Notes) : Prop where
  notes_eq : notes' = notes ++ new
  ran_eq : ran' = ran ++ new.map Prod.fst
  order : RunInOrder ran new

/-- Nothing is noted where nothing is run. -/
theorem Noted.refl {ran : List ModuleKey} {notes : Notes} : Noted ran notes ran notes [] :=
  ⟨by simp, by simp, trivial⟩

/-- What is noted in two steps is noted in both. -/
theorem Noted.trans {ran ran' ran'' : List ModuleKey} {notes notes' notes'' new new' : Notes}
    (h : Noted ran notes ran' notes' new) (h' : Noted ran' notes' ran'' notes'' new') :
    Noted ran notes ran'' notes'' (new ++ new') where
  notes_eq := by rw [h'.notes_eq, h.notes_eq, List.append_assoc]
  ran_eq := by rw [h'.ran_eq, h.ran_eq, List.map_append, List.append_assoc]
  order := runInOrder_append.2 ⟨h.order, h.ran_eq ▸ h'.order⟩

variable {σ : Type} {execute : Executor σ}

/-- A body that is run is noted, and is due. -/
theorem Noted.runsBody {s : Evaluator (σ × Notes)} {root : ModuleKey}
    {result : Except EvalFault Unit} {p q : List ModuleKey × σ × Notes} {new : Notes}
    (hs : s.map.Accounts s.ran) (h : Noted s.ran s.host.2 p.1 p.2.2 new)
    (hrun : EvalM.RunsBody s execute.noting root result p q) :
    ∃ new', Noted s.ran s.host.2 q.1 q.2.2 new' := by
  cases hrun with
  | due e x hinv hmap hown hdue =>
      have hran : e.ran = s.ran ++ new.map Prod.fst := h.ran_eq
      have hruns : EvalM.runs s e = new.map Prod.fst := by
        rw [EvalM.runs, hran, List.drop_left]
      refine ⟨new ++ [(x.key, x.map)], h.trans ⟨rfl, rfl, ?_, trivial⟩⟩
      rw [hmap]
      refine hdue.mono fun k hk => ?_
      show k ∈ e.ran
      rw [hran]
      rcases hk with hbefore | hrun
      · exact List.mem_append_left _ (hs.evaluated k hbefore)
      · exact List.mem_append_right _ (hruns ▸ hrun)

/-- A walk notes what it runs, and runs what is due. -/
theorem exists_noted_of_runsBodies {s e : Evaluator (σ × Notes)} {root : ModuleKey}
    (hs : s.map.Accounts s.ran)
    (h : EvalM.RunsBodies s execute.noting root (s.ran, s.host) e) :
    ∃ new, Noted s.ran s.host.2 e.ran e.host.2 new := by
  obtain ⟨p', hcompletes, -, hlast⟩ := h
  have hnoted : ∃ new, Noted s.ran s.host.2 p'.1 p'.2.2 new := by
    clear hlast
    induction hcompletes with
    | refl => exact ⟨[], .refl⟩
    | tail _ hstep ih =>
        obtain ⟨new, hnew⟩ := ih
        exact hnew.runsBody hs hstep
  obtain ⟨new, hnew⟩ := hnoted
  rcases hlast with rfl | ⟨fault, hstep⟩
  · exact ⟨new, hnew⟩
  · exact hnew.runsBody hs hstep

variable {h : Host (σ × Notes)} {r r₀ : Realm (σ × Notes)}

/-- A realm accounts for what it has run, and has noted all that it has run since it was `r₀`. -/
def NotesSince (r₀ r : Realm (σ × Notes)) : Prop :=
  r.map.Accounts r.ran ∧ ∃ new, Noted r₀.ran r₀.host.2 r.ran r.host.2 new

/-- A walk notes what it runs. -/
theorem NotesSince.walk {key : ModuleKey} {e : Evaluator (σ × Notes)} (hr : NotesSince r₀ r)
    (hbodies : EvalM.RunsBodies ⟨r.map, [], r.ran, r.host⟩ execute.noting key (r.ran, r.host) e) :
    ∃ new, Noted r₀.ran r₀.host.2 e.ran e.host.2 new := by
  obtain ⟨haccounts, new, hnew⟩ := hr
  obtain ⟨new', hnew'⟩ := exists_noted_of_runsBodies haccounts hbodies
  exact ⟨new ++ new', hnew.trans hnew'⟩

/-- A load leaves the notes as they are. -/
theorem preserves_notesSince_loadKey (key : ModuleKey) :
    PreservesSoundly h (NotesSince r₀) (loadKey h key) := by
  intro r hr hnotes
  have haccounts := preserves_accounts_loadKey (h := h) key r hr hnotes.1
  refine (haccounts.and (ends_loadKey_loads h key hr)).imp fun _ hend => ?_
  obtain ⟨hr', c, -, rfl⟩ := hend
  exact ⟨hr', hnotes.2⟩

/-- Instantiation leaves the notes as they are. -/
theorem preserves_notesSince_instantiate (key : ModuleKey) :
    PreservesSoundly h (NotesSince r₀) (instantiate key : RealmM (σ × Notes) Instance) := by
  intro r hr hnotes
  have haccounts := preserves_accounts_instantiate (h := h) key r hr hnotes.1
  have hinstantiate := ends_instantiate_linked (r.map.ends_instantiate_lasts r.rounds key)
  refine (haccounts.and hinstantiate).imp fun _ hend => ?_
  obtain ⟨hr', map, -, rfl⟩ := hend
  exact ⟨hr', hnotes.2⟩

/-- Evaluation notes all that it runs. -/
theorem preserves_notesSince_evaluate (hexecute : h.execute = execute.noting) (key : ModuleKey) :
    PreservesSoundly h (NotesSince r₀) (evaluate h key) := by
  intro r hr hnotes
  have hwalk := ends_evaluate_walk h key hr
  have haccounts := preserves_accounts_evaluate (h := h) key r hr hnotes.1
  rw [hexecute] at hwalk
  refine (haccounts.and hwalk).mono ?_ ?_
  · rintro _ _ ⟨hr', e, hpassed, -, -, rfl⟩
    exact ⟨hr', hnotes.walk (hpassed.bodies.runsBodies hpassed.inv)⟩
  · rintro _ _ ⟨hr', fault, e, e', -, habandons, rfl⟩
    refine ⟨hr', ?_⟩
    obtain ⟨new, hnew⟩ := hnotes.walk habandons.bodies
    rw [← habandons.ran, ← habandons.host] at hnew
    exact ⟨new, hnew⟩

/-- Every call notes all that it runs. -/
theorem preserves_notesSince_run (r₀ : Realm (σ × Notes)) (hexecute : h.execute = execute.noting)
    (call : Call) :
    Preserves (fun r => r.catalog.Sound h.importMap ∧ NotesSince r₀ r) (call.run h) :=
  PreservesSoundly.run (fun key => preserves_notesSince_loadKey key)
    (fun key => preserves_notesSince_instantiate key)
    (fun key => preserves_notesSince_evaluate hexecute key) call

/-- A call whose executor takes notes notes what it runs, and runs it when it is due. -/
theorem exists_noted_after (hsound : r.catalog.Sound h.importMap) (haccounts : r.map.Accounts r.ran)
    (hexecute : h.execute = execute.noting) (call : Call) :
    (call.after h r).catalog.Sound h.importMap ∧
      (call.after h r).map.Accounts (call.after h r).ran ∧
      ∃ new, Noted r.ran r.host.2 (call.after h r).ran (call.after h r).host.2 new :=
  (preserves_notesSince_run r hexecute call).after ⟨hsound, haccounts, [], .refl⟩

/-- Whenever the body of a module is run, all that its dependencies lead to has been run before and
has been evaluated, but for dependencies that lead back to the module. This holds of each call, of
every executor, and whatever has been called before. -/
theorem Reached.runs_when_due (hr : Reached h r) (library : Library) (execute : Executor σ)
    (call : Call) : ∃ notes,
    (call.after { h with library, execute := execute.noting } r).host.2 = r.host.2 ++ notes ∧
    (call.after { h with library, execute := execute.noting } r).ran =
      r.ran ++ notes.map Prod.fst ∧
    ∀ before m map later, notes = before ++ (m, map) :: later →
      ∀ d ∈ (map.entry m).dependencies, ¬ map.DependsOn d m →
        ∀ k, map.DependsOn d k →
          map.status? k = some .evaluated ∧ k ∈ r.ran ++ before.map Prod.fst := by
  obtain ⟨-, -, notes, hnoted⟩ :=
    exists_noted_after (h := { h with library, execute := execute.noting }) hr.sound hr.accounts rfl
      call
  refine ⟨notes, hnoted.notes_eq, hnoted.ran_eq, fun before m map later hsplit => ?_⟩
  have horder := hnoted.order
  rw [hsplit, runInOrder_append] at horder
  intro d hd hcycle k hk
  obtain ⟨hevaluated, hran⟩ := horder.2.1 d hd hcycle k hk
  exact ⟨(ModuleMap.status?_eq_some_iff (by simp)).2 hevaluated, hran⟩

/-- The host of the cyclic fragments, with its runs noted. -/
def notingHost : Host (Unit × Notes) :=
  ⟨cyclicUrl, cyclicHost.importMap, cyclicHost.library, cyclicHost.execute.noting⟩

/-- A realm that has loaded the resource and evaluated nothing. -/
def notingRealm : Realm (Unit × Notes) :=
  (Call.loadKey ⟨cyclicUrl, []⟩).after notingHost (fresh ((), []))

/-- The realm is reached by these calls. -/
theorem reached_notingRealm : Reached notingHost notingRealm :=
  .call notingHost.library notingHost.execute (.loadKey ⟨cyclicUrl, []⟩) (.fresh ((), []))

/-- The realm that has then imported it. -/
def notedRealm : Realm (Unit × Notes) :=
  (Call.importKey ⟨cyclicUrl, []⟩).after
    { notingHost with execute := cyclicHost.execute.noting } notingRealm

/-- The fragments are run before the resource that imports them, and are evaluated by then. -/
theorem runs_when_due_root :
    Reached notingHost notingRealm ∧
      ∃ notes : Notes,
        notes.map Prod.fst = [⟨cyclicUrl, ["b"]⟩, ⟨cyclicUrl, ["a"]⟩, ⟨cyclicUrl, []⟩] ∧
        ∀ before m map later, notes = before ++ (m, map) :: later →
          ∀ d ∈ (map.entry m).dependencies, ¬ map.DependsOn d m →
            ∀ k, map.DependsOn d k →
              map.status? k = some .evaluated ∧ k ∈ before.map Prod.fst := by
  obtain ⟨notes, -, (hran : notedRealm.ran = _), hdue⟩ :=
    reached_notingRealm.runs_when_due notingHost.library cyclicHost.execute
      (.importKey ⟨cyclicUrl, []⟩)
  obtain ⟨hbefore, hruns⟩ : notingRealm.ran = [] ∧
      notedRealm.ran = [⟨cyclicUrl, ["b"]⟩, ⟨cyclicUrl, ["a"]⟩, ⟨cyclicUrl, []⟩] := by
    decide +kernel
  simp only [hbefore, hruns, List.nil_append] at hran hdue
  exact ⟨reached_notingRealm, notes, hran.symm, hdue⟩

end Realm

/-! ## What executors are given -/

namespace Realm

variable {σ : Type} {h : Host σ} {r : Realm σ} {r' : Realm (σ × Notes)}

/-- Two realms have come to be by the same calls, but the executors of the second one have also
noted what they were given. -/
inductive TakesNotes (h : Host σ) : Realm σ → Realm (σ × Notes) → Prop
  | fresh (host : σ) : TakesNotes h (Realm.fresh host) (Realm.fresh (host, []))
  | call {r : Realm σ} {r' : Realm (σ × Notes)} (library : Library) (execute : Executor σ)
      (call : Call) : TakesNotes h r r' →
      TakesNotes h (call.after { h with library, execute } r)
        (call.after (Host.withExecutor { h with library } execute.noting) r')

/-- The calls that lead to a realm can be repeated with notes. -/
theorem Reached.exists_takesNotes (hr : Reached h r) : ∃ r', TakesNotes h r r' := by
  induction hr with
  | fresh host => exact ⟨_, .fresh host⟩
  | call library execute call _ ih =>
      obtain ⟨r', hnotes⟩ := ih
      exact ⟨_, .call library execute call hnotes⟩

/-- But for the notes the two realms are the same. -/
theorem TakesNotes.mapHost_eq (hr : TakesNotes h r r') : r'.mapHost Prod.fst = r := by
  induction hr with
  | fresh host => rfl
  | @call r r' library execute call _ ih =>
      have hafter := after_noting (Host.withExecutor { h with library } execute.noting) execute
        call r'
      rw [ih] at hafter
      exact hafter

/-- The notes name what has been run, and the realm accounts for it. -/
theorem TakesNotes.accounts (hr : TakesNotes h r r') :
    r'.catalog.Sound h.importMap ∧ r'.map.Accounts r'.ran ∧ r'.ran = r'.host.2.map Prod.fst := by
  induction hr with
  | fresh host =>
      have hfresh : Reached h (Realm.fresh host) := .fresh host
      exact ⟨hfresh.sound, hfresh.accounts, rfl⟩
  | @call r r' library execute call _ ih =>
      obtain ⟨hsound, haccounts, hran⟩ := ih
      obtain ⟨hsound', haccounts', new, hnoted⟩ :=
        exists_noted_after (h := Host.withExecutor { h with library } execute.noting) hsound
          haccounts rfl call
      refine ⟨hsound', haccounts', ?_⟩
      rw [hnoted.ran_eq, hnoted.notes_eq, hran, List.map_append]

/-- What a realm says that it has run is what its executors were given: they have noted just the
modules of `ran`, in their order. So no executor is given a module that another one or itself has
been given before, and each module that has been evaluated has been given to one of them. -/
theorem TakesNotes.ran_eq (hr : TakesNotes h r r') :
    r.ran = r'.host.2.map Prod.fst ∧ (r'.host.2.map Prod.fst).Nodup ∧
      ∀ k, r.map.status? k = some .evaluated → (r'.host.2.map Prod.fst).count k = 1 := by
  obtain ⟨-, haccounts, hran⟩ := hr.accounts
  obtain rfl := hr.mapHost_eq
  have hnodup := haccounts.nodup
  rw [hran] at hnodup
  refine ⟨hran, hnodup, fun k hk => List.count_eq_one_of_mem hnodup (hran ▸ ?_)⟩
  exact haccounts.evaluated k ((ModuleMap.status?_eq_some_iff (by simp)).1 hk)

end Realm

end ModuleGraph
