import ModuleGraph.Proofs.InitializedCells
import ModuleGraph.Proofs.Observation
import ModuleGraph.Proofs.RealmEvaluation

/-!
# Exports have values before they are read

`Realm.Scripted.initialized` is the main statement. All calls run scripts, which may be other ones
in each call. Then the exported locals of all modules that have been evaluated have values. The body
of a module finds a value behind each import whose module does not lead back to it, through whatever
re-exports: what the import refers to belongs to a module that has been evaluated before.

What a body finds is known from records of all bodies that are run, each with the state of the host
in which it begins. An executor that keeps such records changes nothing else
(`Realm.Call.after_recorded`).

The invariant of a walk is that all that has completed has values (`EvalM.Settles`); what counts as
evaluated is among that. A body that throws has completed nothing, but takes nothing away.
-/

namespace ModuleGraph

/-! ## Modules with values -/

namespace ModuleMap

variable {map map' : ModuleMap} {key d : ModuleKey} {cells cells' : Cells} {i : Instance}
  {importName : ImportName} {target : ExportTarget} {b : Binding}

/-- A module has an instance whose cells of exported locals all have values. -/
def Initialized (map : ModuleMap) (key : ModuleKey) (cells : Cells) : Prop :=
  ∃ i body, map.instance? key = some i ∧ (map.entry key).body? = some body ∧
    ∀ name ∈ body.exportedLocals, ∃ cell value,
      i.local? name = some cell ∧ cells.get? cell = some value

/-- A module whose cells have values has values as long as they are kept. -/
theorem Initialized.keeps (h : map.Initialized key cells) (hkeeps : cells.Keeps cells') :
    map.Initialized key cells' := by
  obtain ⟨i, body, hi, hbody, hall⟩ := h
  refine ⟨i, body, hi, hbody, fun name hname => ?_⟩
  obtain ⟨cell, value, hcell, hvalue⟩ := hall name hname
  obtain ⟨value', hvalue'⟩ :=
    Option.isSome_iff_exists.1 (hkeeps cell (Option.isSome_of_eq_some hvalue))
  exact ⟨cell, value', hcell, hvalue'⟩

/-- A module whose cells have values has values as long as its instance lasts. -/
theorem Initialized.lasts (h : map.Initialized key cells) (hlasts : map.Lasts map') :
    map'.Initialized key cells := by
  obtain ⟨i, body, hi, hbody, hall⟩ := h
  rw [instance?_eq] at hi
  have hloaded := Entry.isLoaded_of_instance (Option.isSome_of_eq_some hi)
  refine ⟨i, body, (instance?_eq _ _).trans (hlasts.instances key i hi), ?_, hall⟩
  rw [Entry.body?, hlasts.loaded.declaration key hloaded]
  exact hbody

/-- Modules that are closed under dependencies have all that one of them depends on. -/
theorem mem_of_dependsOn (keys : List ModuleKey) {m : ModuleKey}
    (hclosed : ∀ k ∈ keys, ∀ d ∈ (map.entry k).dependencies, d ∈ keys) (hkey : key ∈ keys)
    (h : map.DependsOn key m) : m ∈ keys := by
  induction h with
  | refl => exact hkey
  | tail _ hd ih => exact hclosed _ ih _ hd

/-- What an import of a module provides has a value if all modules have values to which the module
leads. -/
theorem exists_value_of_provided? (hprovided : map.provided? d importName = some target)
    (hbinding : map.binding? target = some b)
    (hcells : ∀ k, map.DependsOn d k → map.Initialized k cells) :
    ∃ value, cells.valueOf? b = some value := by
  cases target with
  | «namespace» key =>
      obtain ⟨i, -, rfl⟩ := Option.map_eq_some_iff.1 hbinding
      exact ⟨_, rfl⟩
  | binding key name =>
      cases importName with
      | «namespace» => cases hprovided
      | name imported =>
          rw [provided?_name_iff] at hprovided
          obtain ⟨hdepends, body, hbody, hname⟩ :=
            ((resolveExport_eq_ok_iff.1 hprovided _).2 rfl).spec
          obtain ⟨i, body', hi, hbody', hall⟩ := hcells key hdepends
          obtain rfl := Option.some.inj (hbody.symm.trans hbody')
          obtain ⟨cell, value, hcell, hvalue⟩ := hall name hname
          obtain rfl := Option.some.inj (hbinding.symm.trans (binding?_cell hi hcell))
          exact ⟨value, hvalue⟩

/-- The last import entry of a name is bound, and to something with a value if all modules have
values to which the requested module leads. -/
theorem Binds.exists_value (h : map.Binds key i) : ∃ view, map.linkView? key = some view ∧
    ∀ name entry, view.body.importOf? name = some entry →
      ∃ d b, view.dependency? entry.request = some d ∧ i.import? name = some b ∧
        ∀ cells, (∀ k, map.DependsOn d k → map.Initialized k cells) →
          ∃ value, cells.valueOf? b = some value := by
  obtain ⟨view, hview, hbound⟩ := h.imports
  refine ⟨view, hview, fun name entry hentry => ?_⟩
  obtain ⟨b, hb, -, d, hd, target, hprovided, hbinding⟩ :=
    exists_import?_of_bound (List.rel_reverse hbound) hentry
  exact ⟨d, b, hd, hb, fun cells hcells => exists_value_of_provided? hprovided hbinding hcells⟩

end ModuleMap

/-! ## Walks -/

/-- Modules that have been executed, each with the state of the host in which its body began. -/
abbrev Records (σ : Type) := List (Execution × σ)

/-- The executor that also records what it runs. -/
def Executor.recording {σ : Type} (execute : Executor σ) : Executor (σ × Records σ) :=
  fun x host =>
    let (result, state) := execute x host.1
    (result, state, host.2 ++ [(x, host.1)])

/-- An executor that records what it runs answers as the one without records. -/
theorem Executor.refines_recording {σ : Type} (execute : Executor σ) :
    execute.recording.Refines Prod.fst execute :=
  fun _ _ => rfl

variable {σ : Type} {store : CellStore σ} {scripts : Scripts store}

/-- What a body finds when it begins. It is executed with its own instance and its own body, and
from then on all that has been evaluated has values, and each import can be read whose module does
not lead back to the importer. -/
structure Execution.Finds (store : CellStore σ) (x : Execution) (s : σ) : Prop where
  own : x.IsOwn
  evaluated : ∀ k, (x.map.entry k).status = .evaluated → x.map.Initialized k (store.cells s)
  imports : ∃ view, x.map.linkView? x.key = some view ∧
    ∀ name entry, view.body.importOf? name = some entry →
      ∃ d, view.dependency? entry.request = some d ∧
        (¬ x.map.DependsOn d x.key → ∀ stage : Stage, (store.cells s).Keeps stage.cells →
          ∃ value, (x.read name).run.run stage = (.ok value, stage))

namespace EvalM

variable {s e : Evaluator (σ × Records σ)} {root : ModuleKey}
  {p q : List ModuleKey × σ × Records σ} {rounds : Nat}

/-- What bodies leave behind that have been run one after the other: all modules that have been
evaluated before or have been run since have values. -/
structure Settles (store : CellStore σ) (s : Evaluator (σ × Records σ))
    (p : List ModuleKey × σ × Records σ) : Prop where
  initialized : ∀ k, Evaluated s k ∨ k ∈ p.1.drop s.ran.length →
    s.map.Initialized k (store.cells p.2.1)
  ran : p.2.2.map (fun record => record.1.key) = p.1
  finds : ∀ record ∈ p.2.2, record.1.Finds store record.2

/-- What is known of the instances of a map. -/
structure Linked (map : ModuleMap) (rounds : Nat) : Prop where
  closed : map.Closed
  sound : map.LinkSound
  wired : map.Wired rounds

/-- A body that is due finds what it needs. -/
theorem Settles.finds_due {x : Execution} (hs : Linked s.map rounds)
    (h : Settles store s (e.ran, e.host)) (hinv : Inv s root e) (hmap : x.map = e.map)
    (hown : x.IsOwn) (hdue : e.map.Due (HasRun s e) x.key) : x.Finds store e.host.1 := by
  have hinitialized : ∀ k, HasRun s e k → x.map.Initialized k (store.cells e.host.1) :=
    fun k hk => hmap ▸ (h.initialized k hk).lasts hinv.lasts
  refine ⟨hown, fun k hk => hinitialized k (hinv.evaluated k ?_), ?_⟩
  · rwa [hmap] at hk
  obtain ⟨-, hbinds⟩ := hs.wired.lasts hs.closed hinv.lasts hinv.instances x.key x.inst
    (hmap ▸ hown.inst)
  rw [← hmap] at hbinds hdue
  obtain ⟨view, hview, himports⟩ := hbinds.exists_value
  refine ⟨view, hview, fun name entry hentry => ?_⟩
  obtain ⟨d, b, hd, hb, hvalue⟩ := himports name entry hentry
  refine ⟨d, hd, fun hcycle stage hkeeps => ?_⟩
  have hmem : d ∈ (x.map.entry x.key).dependencies :=
    ModuleMap.dependencies_of_linkView? hview ▸ LinkView.mem_dependencies hd
  obtain ⟨value, hvalue⟩ := hvalue stage.cells fun k hk =>
    (hinitialized k (hdue d hmem hcycle k hk).2).keeps hkeeps
  exact ⟨value, Execution.read_of_import hb hvalue⟩

/-- A body that comes to its end leaves its module with values. -/
theorem Settles.initialized_own {x : Execution} (hs : Linked s.map rounds) (hinv : Inv s root e)
    (hmap : x.map = e.map) (hown : x.IsOwn) {state : σ}
    (hresult : (scripts.executor x state).1 = .ok ()) :
    s.map.Initialized x.key (store.cells (scripts.executor x state).2) := by
  have hinstance : (s.map.entry x.key).instance? = some x.inst := by
    rw [← hinv.instances, ← hmap, hown.inst]
  have hbody : (s.map.entry x.key).body? = some x.body := by
    rw [Entry.body?, ← hinv.advances.declaration, ← hmap]
    exact hown.body
  refine ⟨x.inst, x.body, (ModuleMap.instance?_eq _ _).trans hinstance, hbody, fun name hname => ?_⟩
  obtain ⟨body, hbody', hlocals⟩ := (hs.sound.instances x.key x.inst hinstance).locals
  obtain rfl := Option.some.inj (hbody.symm.trans hbody')
  have hcell : x.inst.local? name = some ⟨x.inst.id, name⟩ := by
    rw [Instance.local?, hlocals, if_pos (by simpa using hname)]
  obtain ⟨value, hvalue⟩ :=
    Option.isSome_iff_exists.1 (scripts.executor_settles hresult hname hcell)
  exact ⟨_, value, hcell, hvalue⟩

/-- What a body leaves behind. If it throws, its module may lack values. -/
theorem Settles.runsBody {result : Except EvalFault Unit} (hs : Linked s.map rounds)
    (h : Settles store s p) (hrun : RunsBody s scripts.executor.recording root result p q) :
    (result = .ok () → Settles store s q) ∧ (store.cells p.2.1).Keeps (store.cells q.2.1) ∧
      q.2.2.map (fun record => record.1.key) = q.1 ∧
      ∀ record ∈ q.2.2, record.1.Finds store record.2 := by
  cases hrun with
  | due e x hinv hmap hown hdue =>
      have hkeeps := scripts.executor_keeps x e.host.1
      have hran : (e.host.2 ++ [(x, e.host.1)]).map (fun record => record.1.key) =
          e.ran ++ [x.key] := by
        rw [List.map_append, h.ran]
        rfl
      have hfinds : ∀ record ∈ e.host.2 ++ [(x, e.host.1)], record.1.Finds store record.2 := by
        intro record hrecord
        rcases List.mem_append.1 hrecord with hold | hnew
        · exact h.finds record hold
        · rw [List.mem_singleton.1 hnew]
          exact h.finds_due hs hinv hmap hown hdue
      refine ⟨fun hresult => ⟨fun k hk => ?_, hran, hfinds⟩, hkeeps, hran, hfinds⟩
      rw [hinv.ran, List.append_assoc, List.drop_left] at hk
      rcases hk with hbefore | hrun
      · exact (h.initialized k (.inl hbefore)).keeps hkeeps
      · rcases List.mem_append.1 hrun with hrun | hself
        · exact (h.initialized k (.inr hrun)).keeps hkeeps
        · rw [List.mem_singleton.1 hself]
          exact Settles.initialized_own hs hinv hmap hown hresult

/-- Bodies that complete leave values behind. -/
theorem Settles.completes (hs : Linked s.map rounds) (h : Settles store s p)
    (hcompletes : Completes s scripts.executor.recording root p q) : Settles store s q := by
  induction hcompletes with
  | refl => exact h
  | tail _ hstep ih => exact (ih.runsBody hs hstep).1 rfl

/-- What a walk leaves behind, even if a body throws. -/
theorem Settles.runsBodies (hs : Linked s.map rounds) (h : Settles store s (s.ran, s.host))
    (hruns : RunsBodies s scripts.executor.recording root (s.ran, s.host) e) :
    (∀ k, Evaluated e k → s.map.Initialized k (store.cells e.host.1)) ∧
      e.host.2.map (fun record => record.1.key) = e.ran ∧
      ∀ record ∈ e.host.2, record.1.Finds store record.2 := by
  obtain ⟨p', hcompletes, hevaluated, hlast⟩ := hruns
  have h' := h.completes hs hcompletes
  rcases hlast with rfl | ⟨fault, hthrows⟩
  · exact ⟨fun k hk => h'.initialized k (hevaluated k hk), h'.ran, h'.finds⟩
  · obtain ⟨-, hkeeps, hran, hfinds⟩ := h'.runsBody hs hthrows
    exact ⟨fun k hk => (h'.initialized k (hevaluated k hk)).keeps hkeeps, hran, hfinds⟩

end EvalM

/-! ## Realms -/

namespace Realm

variable {h : Host (σ × Records σ)} {r r' : Realm (σ × Records σ)} {key : ModuleKey}

/-- All modules that have been evaluated have values, and all bodies have found what they need. -/
structure Settled (store : CellStore σ) (r : Realm (σ × Records σ)) : Prop where
  sound : r.map.LinkSound
  wired : r.map.Wired r.rounds
  evaluated : ∀ m, (r.map.entry m).status = .evaluated →
    r.map.Initialized m (store.cells r.host.1)
  ran : r.host.2.map (fun record => record.1.key) = r.ran
  finds : ∀ record ∈ r.host.2, record.1.Finds store record.2

/-- Nothing changes as long as nothing is run. -/
theorem Settled.lasts (hr : Settled store r) (hsound : r'.map.LinkSound)
    (hwired : r'.map.Wired r'.rounds) (hhost : r'.host = r.host) (hran : r'.ran = r.ran)
    (hlasts : r.map.Lasts r'.map) (hnothing : r.map.EvaluatesNothing r'.map) :
    Settled store r' where
  sound := hsound
  wired := hwired
  evaluated m hm := hhost ▸ (hr.evaluated m (hnothing m hm)).lasts hlasts
  ran := hhost ▸ hran ▸ hr.ran
  finds := hhost ▸ hr.finds

/-- A load leaves values and records as they are. -/
theorem preserves_settled_loadKey (key : ModuleKey) :
    PreservesSoundly h (Settled store) (loadKey h key) := by
  intro r hr hsettled
  have hsound := preserves_linkSound_loadKey key r hr hsettled.sound
  have hwired := preserves_wired_loadKey key r hr hsettled.wired
  refine (hsound.and (hwired.and (ends_loadKey_loads h key hr))).imp fun _ hend => ?_
  obtain ⟨hsound', hwired', c, hloads, rfl⟩ := hend
  obtain ⟨hlasts, hnothing⟩ := hr.lasts_loads hloads
  exact hsettled.lasts hsound' hwired' rfl rfl hlasts hnothing

/-- Instantiation takes no value away. -/
theorem preserves_settled_instantiate (key : ModuleKey) :
    PreservesSoundly h (Settled store)
      (instantiate key : RealmM (σ × Records σ) Instance) := by
  intro r hr hsettled
  have hsound := preserves_linkSound_instantiate key r hr hsettled.sound
  have hwired := preserves_wired_instantiate key r hr hsettled.wired
  have hinstantiate := ends_instantiate_linked (r.map.ends_instantiate_lasts r.rounds key)
  refine (hsound.and (hwired.and hinstantiate)).imp fun _ hend => ?_
  obtain ⟨hsound', hwired', map, ⟨hlasts, hnothing⟩, rfl⟩ := hend
  exact hsettled.lasts hsound' hwired' rfl rfl hlasts hnothing

/-- What a walk that begins with a settled realm leaves behind. -/
theorem Settled.walk {e : Evaluator (σ × Records σ)} (hr : r.catalog.Sound h.importMap)
    (hsettled : Settled store r)
    (hruns : EvalM.RunsBodies ⟨r.map, [], r.ran, r.host⟩ scripts.executor.recording key
      (r.ran, r.host) e) :
    (∀ k, EvalM.Evaluated e k → r.map.Initialized k (store.cells e.host.1)) ∧
      e.host.2.map (fun record => record.1.key) = e.ran ∧
      ∀ record ∈ e.host.2, record.1.Finds store record.2 := by
  have hlinked : EvalM.Linked r.map r.rounds := ⟨hr.closed, hsettled.sound, hsettled.wired⟩
  have hstart : EvalM.Settles store ⟨r.map, [], r.ran, r.host⟩ (r.ran, r.host) := by
    refine ⟨fun k hk => ?_, hsettled.ran, hsettled.finds⟩
    rcases hk with hbefore | hrun
    · exact hsettled.evaluated k hbefore
    · simp at hrun
  exact hstart.runsBodies hlinked hruns

/-- Evaluation leaves values behind, and its bodies have found what they need. -/
theorem preserves_settled_evaluate (hexecute : h.execute = scripts.executor.recording)
    (key : ModuleKey) : PreservesSoundly h (Settled store) (evaluate h key) := by
  intro r hr hsettled
  have hsound := preserves_linkSound_evaluate key r hr hsettled.sound
  have hwired := preserves_wired_evaluate key r hr hsettled.wired
  have hwalk := ends_evaluate_walk h key hr
  rw [hexecute] at hwalk
  refine (hsound.and (hwired.and hwalk)).mono ?_ ?_
  · intro _ _ hend
    obtain ⟨hsound', hwired', e, hpassed, -, -, rfl⟩ := hend
    obtain ⟨hevaluated, hran, hfinds⟩ :=
      hsettled.walk hr (hpassed.bodies.runsBodies hpassed.inv)
    exact ⟨hsound', hwired', fun m hm => (hevaluated m hm).lasts hpassed.inv.lasts, hran, hfinds⟩
  · intro _ _ hend
    obtain ⟨hsound', hwired', fault, e, e', -, habandons, rfl⟩ := hend
    obtain ⟨hevaluated, hran, hfinds⟩ := hsettled.walk hr habandons.bodies
    rw [← habandons.host] at hevaluated hran hfinds
    rw [← habandons.ran] at hran
    refine ⟨hsound', hwired', fun m hm => ?_, hran, hfinds⟩
    exact (hevaluated m (habandons.fails.reflected m hm)).lasts
      (habandons.inv.lasts.trans habandons.fails.lasts)

/-- The realm with records in the state of its host. -/
def recorded {σ : Type} (r : Realm σ) (records : Records σ) : Realm (σ × Records σ) :=
  ⟨r.catalog, r.rounds, r.ran, (r.host, records)⟩

/-- The records after a call. -/
def Call.records {σ : Type} (h : Host σ) (call : Call) (r : Realm σ) (records : Records σ) :
    Records σ :=
  (call.after (h.withExecutor h.execute.recording) (r.recorded records)).host.2

/-- A call does the same whether it is recorded or not. -/
theorem Call.after_recorded {σ : Type} (h : Host σ) (call : Call) (r : Realm σ)
    (records : Records σ) :
    call.after (h.withExecutor h.execute.recording) (r.recorded records) =
      (call.after h r).recorded (call.records h r records) := by
  have hsame := Call.after_mapHost (h := h.withExecutor h.execute.recording)
    h.execute.refines_recording call (r.recorded records)
  have hplain : (call.after (h.withExecutor h.execute.recording) (r.recorded records)).mapHost
      Prod.fst = call.after h r := hsame
  rw [← hplain]
  rfl

section Scripted

variable {h : Host σ} {r : Realm σ} {records : Records σ}

/-- The realms that calls lead to which run scripts, each with the records of all bodies that have
been run. Each call has scripts of its own. -/
inductive Scripted (store : CellStore σ) (h : Host σ) : Realm σ → Records σ → Prop
  | fresh (host : σ) : Scripted store h (Realm.fresh host) []
  | call {r : Realm σ} {records : Records σ} (library : Library) (scripts : Scripts store)
      (call : Call) : Scripted store h r records →
      Scripted store h (call.after { h with library, execute := scripts.executor } r)
        (call.records { h with library, execute := scripts.executor } r records)

/-- A realm that runs scripts is reached by its calls. -/
theorem Scripted.reached (hr : Scripted store h r records) : Reached h r := by
  induction hr with
  | fresh host => exact .fresh _
  | call library scripts call _ ih => exact .call library _ call ih

/-- In a realm that runs scripts all that has been evaluated has values. -/
theorem Scripted.settled (hr : Scripted store h r records) :
    Settled store (r.recorded records) := by
  induction hr with
  | fresh host =>
      refine ⟨.empty, fun _ _ hi => ?_, fun _ hm => ?_, rfl, fun _ hrecord => ?_⟩
      · cases hi
      · cases hm
      · cases hrecord
  | @call r records library scripts call hr ih =>
      have hcall := PreservesSoundly.run
        (h := Host.withExecutor { h with library } scripts.executor.recording)
        (fun key => preserves_settled_loadKey key) (fun key => preserves_settled_instantiate key)
        (fun key => preserves_settled_evaluate rfl key) call
      have hsound : (r.recorded records).catalog.Sound h.importMap := hr.reached.sound
      have hafter := (hcall.after ⟨hsound, ih⟩).2
      exact Call.after_recorded { h with library, execute := scripts.executor } call r records ▸
        hafter

/-- Whatever scripts are run, the exported locals of all modules that have been evaluated have
values in every realm that calls lead to. The same holds when a body begins, and from then on: no
script can take a value away. From then on, too, the body can read each name that it imports from a
module which does not lead back to it, whatever re-exports lie between this module and the owner of
the binding. Of all bodies that have been run there is a record. -/
theorem Scripted.initialized (hr : Scripted store h r records) :
    (∀ m, r.map.status? m = some .evaluated → r.map.Initialized m (store.cells r.host)) ∧
    records.map (fun record => record.1.key) = r.ran ∧
    ∀ x s, (x, s) ∈ records → x.map.instance? x.key = some x.inst ∧
      ∀ stage : Stage, (store.cells s).Keeps stage.cells →
        (∀ m, x.map.status? m = some .evaluated → x.map.Initialized m stage.cells) ∧
        ∃ view, x.map.linkView? x.key = some view ∧ view.body = x.body ∧
          ∀ name entry, view.body.importOf? name = some entry →
            ∃ d, view.dependency? entry.request = some d ∧ (¬ x.map.DependsOn d x.key →
              ∃ value, (x.read name).run.run stage = (.ok value, stage)) := by
  have hstatus : ∀ (map : ModuleMap) m, map.status? m = some .evaluated ↔
      (map.entry m).status = .evaluated := fun _ _ => ModuleMap.status?_eq_some_iff (by simp)
  simp only [hstatus]
  have hsettled := hr.settled
  refine ⟨hsettled.evaluated, hsettled.ran, fun x s hrecord => ?_⟩
  obtain ⟨hown, hevaluated, view, hview, himports⟩ := hsettled.finds _ hrecord
  refine ⟨(ModuleMap.instance?_eq _ _).trans hown.inst, fun stage hkeeps => ?_⟩
  have hbody : view.body = x.body :=
    Option.some.inj ((ModuleMap.linkView?_eq_some_iff.1 hview).2.symm.trans hown.body)
  refine ⟨fun m hm => (hevaluated m hm).keeps hkeeps, view, hview, hbody, fun name entry h => ?_⟩
  obtain ⟨d, hd, hreads⟩ := himports name entry h
  exact ⟨d, hd, fun hcycle => hreads hcycle stage hkeeps⟩

end Scripted

/-- The counter's script gives it a value, and one importer reads it by way of the relay. -/
def counterActions : List (ModuleKey × List Action) :=
  [(fileKey "counter.js", [.assign "count" (.string "one")]), (fileKey "indirect.js", [.read "y"])]

/-- The host with the counter, which runs these actions. -/
def scriptedHost : Host Stage :=
  counterHost.withExecutor (Script.executor counterActions)

/-- The realm that has imported the importer. -/
def scriptedRealm : Realm Stage :=
  (Call.importKey (fileKey "indirect.js")).after scriptedHost (fresh Stage.empty)

/-- What has been run then. -/
def scriptedRecords : Records Stage :=
  (Call.importKey (fileKey "indirect.js")).records scriptedHost (fresh Stage.empty) []

/-- The realm has run the scripts of three modules. -/
theorem scripted_scriptedRealm :
    Scripted Stage.store scriptedHost scriptedRealm scriptedRecords := by
  have hhost : { scriptedHost with execute := (Script.scripts counterActions).executor } =
      scriptedHost := by
    rw [← Script.executor_eq_scripts]
    rfl
  have hcall := Scripted.call (h := scriptedHost) scriptedHost.library
    (Script.scripts counterActions) (.importKey (fileKey "indirect.js")) (.fresh Stage.empty)
  rw [hhost] at hcall
  exact hcall

/-- What one name of a module that is executed is imported from. -/
def importedFrom? (x : Execution) (name : String) : Option ModuleKey := do
  let view ← x.map.linkView? x.key
  let entry ← view.body.importOf? name
  view.dependency? entry.request

/-- A name is imported from the module that its last import entry requests. -/
theorem importedFrom?_eq_some_iff {x : Execution} {name : String} {d : ModuleKey} :
    importedFrom? x name = some d ↔ ∃ view, x.map.linkView? x.key = some view ∧
      ∃ entry, view.body.importOf? name = some entry ∧
        view.dependency? entry.request = some d := by
  simp only [importedFrom?, bind, Option.bind_eq_some_iff]

/-- The counter has a value, and the body of the importer reads it through the relay. -/
theorem initialized_scripted :
    Scripted Stage.store scriptedHost scriptedRealm scriptedRecords ∧
      scriptedRealm.ran =
        [fileKey "counter.js", fileKey "relay.js", fileKey "indirect.js"] ∧
      scriptedRealm.map.Initialized (fileKey "counter.js") scriptedRealm.host.cells ∧
      ∃ x s value, (x, s) ∈ scriptedRecords ∧ x.key = fileKey "indirect.js" ∧
        (x.read "y").run.run s = (.ok value, s) := by
  obtain ⟨hran, hstatus, record, hrecord, hkey, himported, hrelay, hcounter⟩ :
      scriptedRealm.ran = [fileKey "counter.js", fileKey "relay.js", fileKey "indirect.js"] ∧
      scriptedRealm.map.status? (fileKey "counter.js") = some .evaluated ∧
      ∃ record ∈ scriptedRecords, record.1.key = fileKey "indirect.js" ∧
        importedFrom? record.1 "y" = some (fileKey "relay.js") ∧
        (record.1.map.entry (fileKey "relay.js")).dependencies = [fileKey "counter.js"] ∧
        (record.1.map.entry (fileKey "counter.js")).dependencies = [] := by
    decide +kernel
  obtain ⟨hinitialized, -, hrecords⟩ := scripted_scriptedRealm.initialized
  obtain ⟨-, hstage⟩ := hrecords record.1 record.2 hrecord
  obtain ⟨-, view, hview, -, himports⟩ := hstage record.2 .refl
  obtain ⟨view', hview', entry, hentry, hd⟩ := importedFrom?_eq_some_iff.1 himported
  obtain rfl := Option.some.inj (hview.symm.trans hview')
  obtain ⟨d, hd', hreads⟩ := himports "y" entry hentry
  obtain rfl := Option.some.inj (hd.symm.trans hd')
  -- the relay leads to the counter, and the counter nowhere
  have hcycle : ¬ record.1.map.DependsOn (fileKey "relay.js") record.1.key := by
    intro hdepends
    have hmem := ModuleMap.mem_of_dependsOn
      [fileKey "relay.js", fileKey "counter.js"] (by simp [hrelay, hcounter]) (by simp)
      hdepends
    rw [hkey] at hmem
    exact absurd hmem (by decide)
  obtain ⟨value, hvalue⟩ := hreads hcycle
  exact ⟨scripted_scriptedRealm, hran, hinitialized _ hstatus, record.1, record.2, value, hrecord,
    hkey, hvalue⟩

end Realm

end ModuleGraph
