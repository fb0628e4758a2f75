import ModuleGraph.Evaluation
import ModuleGraph.Proofs.CycleStack
import ModuleGraph.Proofs.Linking

/-!
# The evaluating walk

`EvalM.ends_run` is the main statement: whatever the executor answers, a walk that succeeds has
evaluated its module, and one that fails has failed all that still waited. What it has run until
then, it has run once (`Inv.once`), each body when it was due (`ModuleMap.Due`), and none after one
that has thrown (`RunsBodies`). `Catalog.Sound.ends_evaluate` draws the conclusion that a catalog
stays sound.

A module counts as evaluated together with its whole cycle. Until then it waits on the stack, and
all that has been evaluated is closed under dependencies. A module that waits leads to all that is
visited above it, so that what is passed over as waiting leads back to the module that requests it.
A fault leaves the stack as it is, and `EvalM.abandon` fails each module that waits, and no other
one.
-/

namespace ModuleGraph

/-- The body of a module is due: all that its dependencies lead to has been evaluated and has run,
but for dependencies that lead back to the module. -/
def ModuleMap.Due (map : ModuleMap) (HasRun : ModuleKey → Prop) (key : ModuleKey) : Prop :=
  ∀ d ∈ (map.entry key).dependencies, ¬ map.DependsOn d key →
    ∀ k, map.DependsOn d k → (map.entry k).status = .evaluated ∧ HasRun k

/-- A body that is due is so when more modules have run. -/
theorem ModuleMap.Due.mono {map : ModuleMap} {HasRun HasRun' : ModuleKey → Prop} {key : ModuleKey}
    (h : map.Due HasRun key) (hran : ∀ k, HasRun k → HasRun' k) : map.Due HasRun' key :=
  fun d hd hcycle k hk => ⟨(h d hd hcycle k hk).1, hran k (h d hd hcycle k hk).2⟩

/-- The module is executed with its own instance and its own body. -/
structure Execution.IsOwn (x : Execution) : Prop where
  inst : (x.map.entry x.key).instance? = some x.inst
  body : (x.map.entry x.key).body? = some x.body

namespace EvalM

variable {σ : Type} {execute : Executor σ} {s e e' e'' : Evaluator σ} {root key : ModuleKey}

/-- One module requests another. Requests are as they were when the walk began. -/
def Requests (s : Evaluator σ) (importer target : ModuleKey) : Prop :=
  target ∈ (s.map.entry importer).dependencies

/-- The dependencies of modules as the walk sees them. -/
def view (s : Evaluator σ) : CycleStack.View :=
  ⟨fun key => (s.map.entry key).dependencies, fun _ _ => True⟩

/-- A module has been evaluated. -/
def Evaluated (e : Evaluator σ) (key : ModuleKey) : Prop :=
  (e.map.entry key).status = .evaluated

/-- The modules whose bodies have been run since the walk began. -/
def runs (s e : Evaluator σ) : List ModuleKey :=
  e.ran.drop s.ran.length

/-- A module has been evaluated before the walk began, or has been run since. -/
def HasRun (s e : Evaluator σ) (key : ModuleKey) : Prop :=
  Evaluated s key ∨ key ∈ runs s e

/-- The state after a body has been run. -/
def ranBody (execute : Executor σ) (x : Execution) (e : Evaluator σ) : Evaluator σ :=
  { e with ran := e.ran ++ [x.key], host := (execute x e.host).2 }

/-- What holds of an evaluation that began in the state `s` with the module `root`, before and after
each step. Only instantiated modules change, and only when they have been run. -/
structure Inv (s : Evaluator σ) (root : ModuleKey) (e : Evaluator σ) : Prop where
  advances : s.map.Advances e.map
  instances : ∀ key, (e.map.entry key).instance? = (s.map.entry key).instance?
  failures : ∀ key, (e.map.entry key).failure = (s.map.entry key).failure
  moved : ∀ key, e.map.entry key = s.map.entry key ∨
    (s.map.entry key).status = .instantiated ∧ key ∈ runs s e
  kept : ∀ key, Evaluated s key → Evaluated e key
  closed : ∀ key, Evaluated e key → ∀ d ∈ (s.map.entry key).dependencies, Evaluated e d
  nodup : e.stack.Nodup
  waiting : ∀ key ∈ e.stack, (e.map.entry key).status = .instantiated
  ran : e.ran = s.ran ++ runs s e
  once : (runs s e).Nodup
  outcome : ∀ key ∈ runs s e, ¬ Evaluated s key ∧ (Evaluated e key ∨ key ∈ e.stack)
  evaluated : ∀ key, Evaluated e key → HasRun s e key
  reached : ∀ key, key ∈ e.stack ∨ key ∈ runs s e → s.map.DependsOn root key

/-- A body that is due is run, in a state that the walk has come to, and with the given result. -/
inductive RunsBody (s : Evaluator σ) (execute : Executor σ) (root : ModuleKey) :
    Except EvalFault Unit → List ModuleKey × σ → List ModuleKey × σ → Prop
  | due (e : Evaluator σ) (x : Execution) : Inv s root e → x.map = e.map → x.IsOwn →
      e.map.Due (HasRun s e) x.key →
      RunsBody s execute root (execute x e.host).1 (e.ran, e.host)
        (e.ran ++ [x.key], (execute x e.host).2)

/-- Bodies are run one after the other, and none of them throws. -/
abbrev Completes (s : Evaluator σ) (execute : Executor σ) (root : ModuleKey) :
    List ModuleKey × σ → List ModuleKey × σ → Prop :=
  Relation.ReflTransGen (RunsBody s execute root (.ok ()))

/-- Bodies are run one after the other until one of them throws, if any does. What counts as
evaluated in the end has been run before that. -/
def RunsBodies (s : Evaluator σ) (execute : Executor σ) (root : ModuleKey)
    (p : List ModuleKey × σ) (e : Evaluator σ) : Prop :=
  ∃ p', Completes s execute root p p' ∧
    (∀ key, Evaluated e key → Evaluated s key ∨ key ∈ p'.1.drop s.ran.length) ∧
    (p' = (e.ran, e.host) ∨ ∃ fault, RunsBody s execute root (.error fault) p' (e.ran, e.host))

/-- Bodies that are run without a fault are run until one of them throws. -/
theorem Completes.runsBodies {p : List ModuleKey × σ}
    (h : Completes s execute root p (e.ran, e.host)) (hinv : Inv s root e) :
    RunsBodies s execute root p e :=
  ⟨_, h, hinv.evaluated, .inl rfl⟩

/-- Bodies that are run without a fault may be followed by others. -/
theorem RunsBodies.head {p p' : List ModuleKey × σ} (h : Completes s execute root p p')
    (h' : RunsBodies s execute root p' e) : RunsBodies s execute root p e := by
  obtain ⟨p'', hcompletes, hlast⟩ := h'
  exact ⟨p'', h.trans hcompletes, hlast⟩

/-- How the walk goes on as long as it finds no fault. What waits is not run by visits above it. -/
structure Passed (s : Evaluator σ) (execute : Executor σ) (root : ModuleKey)
    (e e' : Evaluator σ) : Prop where
  inv : Inv s root e'
  evaluated : ∀ key, Evaluated e key → Evaluated e' key
  stack : e.stack <+: e'.stack
  runs : runs s e ⊆ runs s e'
  waits : ∀ key ∈ e.stack, key ∈ EvalM.runs s e' → key ∈ EvalM.runs s e
  bodies : Completes s execute root (e.ran, e.host) (e'.ran, e'.host)

/-- A walk may rest where it is. -/
theorem Passed.refl (h : Inv s root e) : Passed s execute root e e :=
  ⟨h, fun _ hk => hk, List.prefix_rfl, fun _ hk => hk, fun _ _ hk => hk, .refl⟩

/-- A walk goes on from where it has come to. -/
theorem Passed.trans (h : Passed s execute root e e') (h' : Passed s execute root e' e'') :
    Passed s execute root e e'' where
  inv := h'.inv
  evaluated k hk := h'.evaluated k (h.evaluated k hk)
  stack := h.stack.trans h'.stack
  runs := List.Subset.trans h.runs h'.runs
  waits k hk hk' := h.waits k hk (h'.waits k (h.stack.subset hk) hk')
  bodies := h.bodies.trans h'.bodies

/-- The invariant holds at the beginning. -/
theorem Inv.start (hstack : s.stack = [])
    (hclosed : ∀ key, Evaluated s key → ∀ d ∈ (s.map.entry key).dependencies, Evaluated s d) :
    Inv s root s := by
  have hruns : runs s s = [] := List.drop_length
  constructor
  case advances => exact .refl
  case moved => exact fun _ => .inl rfl
  case closed => exact hclosed
  case evaluated => exact fun _ hk => .inl hk
  all_goals simp [hruns, hstack]

/-- The dependencies of all modules are as they were when the walk began. -/
theorem Inv.dependencies_eq (h : Inv s root e) (key : ModuleKey) :
    (e.map.entry key).dependencies = (s.map.entry key).dependencies := by
  rw [Entry.dependencies, h.advances.dependencies key, Entry.dependencies]

/-- Modules depend on each other as they did when the walk began. -/
theorem Inv.dependsOn_eq (h : Inv s root e) : e.map.DependsOn = s.map.DependsOn := by
  unfold ModuleMap.DependsOn
  simp only [h.dependencies_eq]

/-- What an evaluated module depends on has been evaluated. -/
theorem Inv.evaluated_of_dependsOn (h : Inv s root e) {k : ModuleKey}
    (hkey : Evaluated e key) (hdepends : s.map.DependsOn key k) : Evaluated e k := by
  induction hdepends with
  | refl => exact hkey
  | tail _ hd ih => exact h.closed _ ih _ hd

/-- A module that is neither evaluated nor waits has not been run. -/
theorem Inv.not_mem_runs (h : Inv s root e)
    (hkey : (e.map.entry key).status = .instantiated) (hnew : key ∉ e.stack) :
    key ∉ runs s e := by
  intro hmem
  rcases (h.outcome key hmem).2 with hevaluated | hwaits
  · rw [Evaluated, hkey] at hevaluated
    cases hevaluated
  · exact hnew hwaits

/-- A module that is to be evaluated goes on the stack. -/
theorem Inv.push (execute : Executor σ) (h : Inv s root e)
    (hkey : (e.map.entry key).status = .instantiated)
    (hnew : key ∉ e.stack) (hreached : s.map.DependsOn root key) :
    Passed s execute root e { e with stack := e.stack ++ [key] } := by
  have hinv : Inv s root { e with stack := e.stack ++ [key] } :=
    { h with
      nodup := by
        rw [← List.concat_eq_append]
        exact h.nodup.concat hnew
      waiting := by
        intro k hk
        rcases List.mem_append.1 hk with hk | hk
        · exact h.waiting k hk
        · exact List.mem_singleton.1 hk ▸ hkey
      outcome := by
        intro k hk
        obtain ⟨hbefore, hnow⟩ := h.outcome k hk
        exact ⟨hbefore, hnow.imp id (List.mem_append_left _)⟩
      reached := by
        intro k hk
        rcases hk with hk | hk
        · rcases List.mem_append.1 hk with hk | hk
          · exact h.reached k (.inl hk)
          · exact List.mem_singleton.1 hk ▸ hreached
        · exact h.reached k (.inr hk) }
  exact ⟨hinv, fun _ hk => hk, List.prefix_append _ _, fun _ hk => hk, fun _ _ hk => hk, .refl⟩

/-- A module that waits is run. -/
theorem Inv.run (execute : Executor σ) (h : Inv s root e) {x : Execution} (hkey : x.key ∈ e.stack)
    (hnew : x.key ∉ runs s e) :
    Inv s root (ranBody execute x e) ∧
      runs s (ranBody execute x e) = runs s e ++ [x.key] := by
  have hruns : runs s (ranBody execute x e) = runs s e ++ [x.key] := by
    show (e.ran ++ [x.key]).drop s.ran.length = _
    rw [h.ran, List.append_assoc, List.drop_left]
  -- a module that waits is not evaluated, so that this is its first run
  have hbefore : ¬ Evaluated s x.key := by
    intro hevaluated
    have hstatus := h.kept _ hevaluated
    rw [Evaluated, h.waiting _ hkey] at hstatus
    cases hstatus
  have hinv : Inv s root (ranBody execute x e) :=
    { h with
      ran := by
        rw [hruns, ← List.append_assoc, ← h.ran]
        rfl
      moved := by
        intro k
        rw [hruns]
        exact (h.moved k).imp id fun hk => ⟨hk.1, List.mem_append_left _ hk.2⟩
      once := by
        rw [hruns, ← List.concat_eq_append]
        exact h.once.concat hnew
      outcome := by
        intro k hk
        rw [hruns] at hk
        rcases List.mem_append.1 hk with hk | hk
        · exact h.outcome k hk
        · rw [List.mem_singleton.1 hk]
          exact ⟨hbefore, .inr hkey⟩
      evaluated := by
        intro k hk
        rw [HasRun, hruns]
        exact (h.evaluated k hk).imp id (List.mem_append_left _)
      reached := by
        intro k hk
        rw [hruns] at hk
        rcases hk with hk | hk
        · exact h.reached k (.inl hk)
        · rcases List.mem_append.1 hk with hk | hk
          · exact h.reached k (.inr hk)
          · exact List.mem_singleton.1 hk ▸ h.reached _ (.inl hkey) }
  exact ⟨hinv, hruns⟩

/-- The stack holds different modules that are known. -/
theorem Inv.length_stack_le (h : Inv s root e) :
    e.stack.length ≤ s.map.entries.length := by
  have hsub : e.stack ⊆ s.map.entries.map Entry.key := by
    intro k hk
    refine ModuleMap.mem_keys_iff.2 ((h.advances.known k).1 (ModuleMap.isKnown_of_status_ne ?_))
    rw [h.waiting k hk]
    decide
  simpa using (List.subperm_of_subset h.nodup hsub).length_le

/-! ## Steps -/

/-- Committing a step that is possible changes the map and nothing else. -/
theorem ends_commit {f : ModuleMap → Except Violation ModuleMap} {g : Entry → Entry}
    {ok : Unit → Evaluator σ → Prop} {error : Halt EvalFault → Evaluator σ → Prop}
    (h : ∃ map', f e.map = .ok map' ∧ e.map.Alters key g map')
    (hok : ∀ map', e.map.Alters key g map' → ok () { e with map := map' }) :
    Ends (commit f) e ok error := by
  obtain ⟨map', hf, halters⟩ := h
  unfold commit
  simp only [ends_bind, ends_get, hf, ends_modify]
  exact hok map' halters

/-- The execution of an entry's body in a state. -/
structure Executes (entry : Entry) (e : Evaluator σ) (x : Execution) : Prop where
  key : x.key = entry.key
  map : x.map = e.map
  inst : entry.instance? = some x.inst
  body : entry.body? = some x.body

/-- Running a body is a matter of the host. A module without an instance is not run. -/
theorem ends_runBody (execute : Executor σ) (entry : Entry) :
    Ends (runBody execute entry) e
      (fun _ e' => ∃ x, Executes entry e x ∧ (execute x e.host).1 = .ok () ∧
        e' = ranBody execute x e)
      fun halt e' => ∃ fault, halt = .fault fault ∧ (e' = e ∨
        ∃ x, Executes entry e x ∧ (execute x e.host).1 = .error fault ∧
          e' = ranBody execute x e) := by
  unfold runBody
  split
  · next inst body hinst hbody =>
      have hexecutes : Executes entry e ⟨entry.key, inst, body, e.map⟩ := ⟨rfl, rfl, hinst, hbody⟩
      simp only [ends_bind, ends_get, ends_set]
      split
      · next hresult => exact ⟨_, hexecutes, hresult, rfl⟩
      · next fault hresult => exact ⟨fault, rfl, .inr ⟨_, hexecutes, hresult, rfl⟩⟩
  · exact ⟨_, rfl, .inl rfl⟩

/-- A module counts as evaluated. -/
def Evaluates (entry entry' : Entry) : Prop :=
  ∃ i, entry.instance? = some i ∧
    entry' = { entry with progress := .evaluated entry.dependencies i }

/-- Modules that are instantiated can be marked as evaluated together. -/
theorem ends_markAll {members : List ModuleKey} (hnodup : members.Nodup)
    (h : ∀ member ∈ members, (e.map.entry member).status = .instantiated) :
    Ends (members.forM fun member => commit (·.markEvaluated member)) e
      (fun _ e' => (e'.stack, e'.ran, e'.host) = (e.stack, e.ran, e.host) ∧
        e.map.AltersAll members Evaluates e'.map)
      fun _ _ => False := by
  have hloop := ModuleMap.ends_alterAll (s := e) id Evaluator.map
    (fun e => (e.stack, e.ran, e.host)) Evaluates
    (fun member => commit (·.markEvaluated member)) members
  rw [List.map_id] at hloop
  refine hloop hnodup fun member hmember e' hentry => ?_
  obtain ⟨-, i, hprogress⟩ := Entry.status_eq_instantiated_iff.1 (h member hmember)
  have hinstance : (e.map.entry member).instance? = some i := by
    rw [Entry.instance?, hprogress, Progress.instance?]
  have hentry' : e'.map.entry member = e.map.entry member := hentry
  have hstatus : (e'.map.entry member).status = .instantiated := by
    rw [hentry', h member hmember]
  refine ends_commit (ModuleMap.markEvaluated_ok
    (ModuleMap.isKnown_of_status_ne (by simp [hstatus])) hstatus
    (by rw [hentry', hinstance])) fun map halters => ?_
  exact ⟨rfl, _, halters, i, hinstance, rfl⟩

/-- Modules of the stack have been evaluated together, and what is left of the stack waits on. -/
structure Finishes (left members : List ModuleKey) (e e' : Evaluator σ) : Prop where
  nodup : left.Nodup
  split : ∀ k, k ∈ e.stack ↔ k ∈ left ∨ k ∈ members
  disjoint : ∀ k ∈ left, k ∉ members
  waiting : ∀ member ∈ members, (e.map.entry member).status = .instantiated
  altered : e.map.AltersAll members Evaluates e'.map
  stack : e'.stack = left
  ran : e'.ran = e.ran
  host : e'.host = e.host

section Finishes

variable {left members : List ModuleKey}

/-- Finishing modules runs none. -/
theorem Finishes.runs_eq (h : Finishes left members e e') : runs s e' = runs s e :=
  congrArg (List.drop s.ran.length) h.ran

/-- Nothing but the members has been evaluated. -/
theorem Finishes.evaluated_iff (h : Finishes left members e e') :
    Evaluated e' key ↔ Evaluated e key ∨ key ∈ members := by
  by_cases hkey : key ∈ members
  · obtain ⟨i, -, hentry⟩ := h.altered.altered key hkey
    obtain ⟨hunfailed, -⟩ := Entry.status_eq_instantiated_iff.1 (h.waiting key hkey)
    have hevaluated : Evaluated e' key := by
      unfold Evaluated
      rw [hentry, Entry.status_eq_evaluated_iff]
      exact ⟨hunfailed, i, rfl⟩
    exact ⟨fun _ => .inr hkey, fun _ => hevaluated⟩
  · rw [Evaluated, h.altered.kept key hkey]
    exact ⟨.inl, fun hkey' => hkey'.resolve_right hkey⟩

/-- Modules that are finished only move forward. -/
theorem Finishes.advances (h : Finishes left members e e') : e.map.Advances e'.map := by
  refine .of_altersAll h.altered (fun k hk => ?_) ?_
  · obtain ⟨-, i, hprogress⟩ := Entry.status_eq_instantiated_iff.1 (h.waiting k hk)
    rw [Entry.isLoaded, hprogress]
    rfl
  · rintro entry _ ⟨i, -, rfl⟩ hloaded
    exact ⟨rfl, (ModuleMap.dependencies?_of_isLoaded hloaded).symm, rfl⟩

/-- Modules that are finished keep their instances. -/
theorem Finishes.instance?_eq (h : Finishes left members e e') (k : ModuleKey) :
    (e'.map.entry k).instance? = (e.map.entry k).instance? := by
  by_cases hk : k ∈ members
  · obtain ⟨i, hinstance, hentry⟩ := h.altered.altered k hk
    rw [hentry]
    exact hinstance.symm
  · rw [h.altered.kept k hk]

/-- Finishing modules fails none. -/
theorem Finishes.failure_eq (h : Finishes left members e e') (k : ModuleKey) :
    (e'.map.entry k).failure = (e.map.entry k).failure := by
  by_cases hk : k ∈ members
  · obtain ⟨i, -, hentry⟩ := h.altered.altered k hk
    rw [hentry]
  · rw [h.altered.kept k hk]

/-- Modules that have been run count as evaluated, once all that they depend on does. -/
theorem Inv.finish (hinv : Inv s root e) (h : Finishes left members e e')
    (hclosed : ∀ member ∈ members, ∀ d ∈ (s.map.entry member).dependencies,
      Evaluated e d ∨ d ∈ members)
    (hruns : ∀ member ∈ members, member ∈ runs s e) : Inv s root e' where
  advances := hinv.advances.trans h.advances
  instances k := (h.instance?_eq k).trans (hinv.instances k)
  failures k := (h.failure_eq k).trans (hinv.failures k)
  moved k := by
    rw [h.runs_eq]
    by_cases hk : k ∈ members
    -- a member is run before it is finished, and has been instantiated when the walk began
    · rcases hinv.moved k with hsame | hmoved
      · exact .inr ⟨hsame ▸ h.waiting k hk, hruns k hk⟩
      · exact .inr hmoved
    · rw [h.altered.kept k hk]
      exact hinv.moved k
  kept k hk := h.evaluated_iff.2 (.inl (hinv.kept k hk))
  closed k hk d hd := by
    rcases h.evaluated_iff.1 hk with hk | hk
    · exact h.evaluated_iff.2 (.inl (hinv.closed k hk d hd))
    · exact h.evaluated_iff.2 (hclosed k hk d hd)
  nodup := h.stack ▸ h.nodup
  waiting k hk := by
    rw [h.stack] at hk
    rw [h.altered.kept k (h.disjoint k hk)]
    exact hinv.waiting k ((h.split k).2 (.inl hk))
  ran := by rw [h.ran, h.runs_eq, ← hinv.ran]
  once := h.runs_eq (s := s) ▸ hinv.once
  outcome k hk := by
    rw [h.runs_eq] at hk
    obtain ⟨hbefore, hnow⟩ := hinv.outcome k hk
    refine ⟨hbefore, ?_⟩
    rw [h.evaluated_iff, h.stack]
    rcases hnow with hevaluated | hwaits
    · exact .inl (.inl hevaluated)
    · rcases (h.split k).1 hwaits with hleft | hmember
      · exact .inr hleft
      · exact .inl (.inr hmember)
  evaluated k hk := by
    rw [HasRun, h.runs_eq]
    rcases h.evaluated_iff.1 hk with hk | hk
    · exact hinv.evaluated k hk
    · exact .inr (hruns k hk)
  reached k hk := by
    rw [h.runs_eq, h.stack] at hk
    exact hinv.reached k (hk.imp (fun hk => (h.split k).2 (.inl hk)) id)

end Finishes

/-- The modules above a position are evaluated together. -/
theorem ends_finish {base : List ModuleKey} (hstack : base <+: e.stack) (hnodup : e.stack.Nodup)
    (hwaiting : ∀ key ∈ e.stack, (e.map.entry key).status = .instantiated) :
    Ends (finish base.length) e
      (fun _ e' => Finishes base (e.stack.drop base.length) e e') fun _ _ => False := by
  obtain ⟨htake, hmembers, hsplit, hdisjoint⟩ := CycleStack.split_of_grown hstack hnodup
  have hwaiting' : ∀ member ∈ e.stack.drop base.length,
      (e.map.entry member).status = .instantiated :=
    fun member hmember => hwaiting member (List.mem_of_mem_drop hmember)
  unfold finish
  simp only [ends_bind, ends_get, ends_modify, htake]
  refine (ends_markAll (e := { e with stack := base }) hmembers hwaiting').mono ?_
    fun _ _ hfalse => hfalse
  intro _ e' hend
  obtain ⟨hrest, halters⟩ := hend
  simp only [Prod.mk.injEq] at hrest
  exact ⟨hnodup.sublist hstack.sublist, hsplit, hdisjoint, hwaiting', halters, hrest.1, hrest.2.1,
    hrest.2.2⟩

/-- The modules above a position count as evaluated together. All of them have been run. -/
theorem passed_finish (h : Passed s execute root e e')
    (hexplored : ∀ member ∈ e'.stack.drop e.stack.length, CycleStack.Explored (view s)
      (Evaluated e') e'.stack e.stack.length member (s.map.entry member).dependencies)
    (hruns : ∀ member ∈ e'.stack.drop e.stack.length, member ∈ runs s e') :
    Ends (finish e.stack.length) e'
      (fun _ e'' => Passed s execute root e e'' ∧ e''.stack = e.stack ∧
        ∀ member ∈ e'.stack.drop e.stack.length, Evaluated e'' member)
      fun _ _ => False := by
  refine (ends_finish h.stack h.inv.nodup h.inv.waiting).mono ?_ fun _ _ hfalse => hfalse
  intro _ e'' hfinishes
  have hinv : Inv s root e'' :=
    h.inv.finish hfinishes (fun member hmember d hd => (hexplored member hmember d hd).1) hruns
  refine ⟨⟨hinv, fun k hk => hfinishes.evaluated_iff.2 (.inl (h.evaluated k hk)),
    hfinishes.stack ▸ List.prefix_rfl, ?runs, fun k hk hk' => ?waits, ?bodies⟩, hfinishes.stack,
    fun k hk => hfinishes.evaluated_iff.2 (.inr hk)⟩
  case runs =>
    rw [hfinishes.runs_eq]
    exact h.runs
  case waits =>
    rw [hfinishes.runs_eq] at hk'
    exact h.waits k hk hk'
  case bodies =>
    rw [hfinishes.ran, hfinishes.host]
    exact h.bodies

/-! ## Visits -/

/-- How the walk comes back with a fault. Whatever waited still waits. -/
structure Broken (s : Evaluator σ) (execute : Executor σ) (root : ModuleKey) (e : Evaluator σ)
    (halt : Halt EvalFault) (e' : Evaluator σ) : Prop where
  fault : ∃ fault, halt = .fault fault
  inv : Inv s root e'
  stack : e.stack <+: e'.stack
  bodies : RunsBodies s execute root (e.ran, e.host) e'

/-- A fault that is found further on is one of the whole walk. -/
theorem Passed.broken {halt : Halt EvalFault} (h : Passed s execute root e e')
    (h' : Broken s execute root e' halt e'') : Broken s execute root e halt e'' :=
  ⟨h'.fault, h'.inv, h.stack.trans h'.stack, .head h.bodies h'.bodies⟩

/-- What the answer to a visit says: of the stack, and of what leads where. What is left on the
stack has been run. -/
structure Visited (s e : Evaluator σ) (key : ModuleKey) (answer : Option Nat)
    (e' : Evaluator σ) : Prop where
  search : CycleStack.Answer (view s) (Evaluated e') e.stack e'.stack key answer
  leaves : CycleStack.Leaves (Requests s) e.stack e'.stack key answer
  ran : ∀ member ∈ e'.stack.drop e.stack.length, member ∈ runs s e'

/-- The state of a visit after some dependencies of the module have been visited. -/
structure Exploring (s : Evaluator σ) (execute : Executor σ) (root : ModuleKey)
    (e : Evaluator σ) (key : ModuleKey) (done : List ModuleKey) (low : Nat) (e' : Evaluator σ) :
    Prop where
  passed : Passed s execute root { e with stack := e.stack ++ [key] } e'
  exploring : CycleStack.Exploring (view s) (Evaluated e') e.stack key done low e'.stack
  leading : CycleStack.Leading (Requests s) e'.stack key low
  ran : ∀ member ∈ e'.stack.drop (e.stack.length + 1), member ∈ runs s e'

/-- A module waits while its dependencies are visited. -/
theorem Exploring.mem_stack {done : List ModuleKey} {low : Nat}
    (h : Exploring s execute root e key done low e') : key ∈ e'.stack :=
  h.exploring.pushed.subset (by simp)

/-- One more dependency has been visited. -/
theorem Exploring.visited {done : List ModuleKey} {low : Nat} {d : ModuleKey}
    {answer : Option Nat} (h : Exploring s execute root e key done low e')
    (hd : Requests s key d) (hpassed : Passed s execute root e' e'')
    (hvisited : Visited s e' d answer e'') :
    Exploring s execute root e key (done ++ [d]) (LoadWalk.lower low answer) e'' where
  passed := h.passed.trans hpassed
  exploring := h.exploring.visited hpassed.evaluated hpassed.stack trivial hvisited.search
  leading := h.leading.visited hd hpassed.stack hvisited.search hvisited.leaves
  ran member hmember := by
    rcases CycleStack.mem_drop_or_mem_drop hpassed.stack hmember with hold | hnew
    · exact hpassed.runs (h.ran member hold)
    · exact hvisited.ran member hnew

/-- When all dependencies have been visited, the body is due: what still waits leads to the module,
and all else has been evaluated. -/
theorem Exploring.due {low : Nat}
    (h : Exploring s execute root e key (s.map.entry key).dependencies low e') :
    e'.map.Due (HasRun s e') key := by
  intro d hd hcycle k hk
  rw [h.passed.inv.dependencies_eq] at hd
  rw [h.passed.inv.dependsOn_eq] at hcycle hk
  rcases (h.exploring.explored d hd).1 with hevaluated | hwaits
  · have hk' := h.passed.inv.evaluated_of_dependsOn hevaluated hk
    exact ⟨hk', h.passed.inv.evaluated k hk'⟩
  · exact absurd (h.leading.reaches d (List.mem_of_mem_drop hwaits)) hcycle

/-- The module's own cycle is complete, or waits for a module below. -/
theorem ends_complete {low : Nat} (h : Passed s execute root e e')
    (hexploring : CycleStack.Exploring (view s) (Evaluated e') e.stack key
      (s.map.entry key).dependencies low e'.stack)
    (hleading : CycleStack.Leading (Requests s) e'.stack key low)
    (hran : ∀ member ∈ e'.stack.drop e.stack.length, member ∈ runs s e') :
    Ends (do
        if low = e.stack.length then
          finish e.stack.length
          return none
        else return some low) e'
      (fun answer e'' => Passed s execute root e e'' ∧ Visited s e key answer e'')
      fun _ _ => False := by
  obtain ⟨hkey, hexplored⟩ := CycleStack.Exploring.members hexploring
  split
  · next hlow =>
      subst hlow
      rw [ends_bind]
      refine (passed_finish h hexplored hran).mono ?_ fun _ _ hfalse => hfalse
      intro _ e'' hend
      obtain ⟨hpassed, hstack, hevaluated⟩ := hend
      exact ⟨hpassed, ⟨hstack, hevaluated key hkey⟩, hstack ▸ .none, by simp [hstack]⟩
  · next hlow =>
      have hlt : low < e.stack.length := Nat.lt_of_le_of_ne hexploring.le hlow
      exact ⟨h, hexploring.waits hlow, hleading.leaves h.stack hlt, hran⟩

/-- The body that is run after the dependencies is the module's own, and due. -/
theorem Exploring.run {low : Nat} {entry : Entry} {x : Execution}
    (h : Exploring s execute root e key (s.map.entry key).dependencies low e')
    (hbefore : Inv s root e) (hentry : e.map.entry key = entry) (hunrun : key ∉ runs s e')
    (hx : Executes entry e' x) :
    Inv s root (ranBody execute x e') ∧ runs s (ranBody execute x e') = runs s e' ++ [key] ∧
      RunsBody s execute root (execute x e'.host).1 (e'.ran, e'.host)
        ((ranBody execute x e').ran, (ranBody execute x e').host) := by
  have hkey : entry.key = key := hentry ▸ ModuleMap.entry_key
  obtain rfl : x.key = key := hx.key.trans hkey
  obtain ⟨hinv, hruns⟩ := h.passed.inv.run execute h.mem_stack hunrun
  -- the entry is as old as the visit, but neither instance nor declaration has changed since
  have hinstance : (e'.map.entry x.key).instance? = some x.inst := by
    rw [h.passed.inv.instances, ← hbefore.instances, hentry, hx.inst]
  have hbody : (e'.map.entry x.key).body? = some x.body := by
    rw [Entry.body?, h.passed.inv.advances.declaration, ← hbefore.advances.declaration, hentry]
    exact hx.body
  have hown : x.IsOwn := ⟨hx.map ▸ hinstance, hx.map ▸ hbody⟩
  exact ⟨hinv, hruns, .due e' x h.passed.inv hx.map hown h.due⟩

/-- The walk goes on after a body that does not throw, if its module did not wait before. -/
theorem Passed.run {x : Execution} (h : Passed s execute root e e') (hnew : key ∉ e.stack)
    (hinv : Inv s root (ranBody execute x e'))
    (hruns : EvalM.runs s (ranBody execute x e') = EvalM.runs s e' ++ [key])
    (hbody : RunsBody s execute root (.ok ()) (e'.ran, e'.host)
      ((ranBody execute x e').ran, (ranBody execute x e').host)) :
    Passed s execute root e (ranBody execute x e') where
  inv := hinv
  evaluated := h.evaluated
  stack := h.stack
  runs := by
    rw [hruns]
    exact List.subset_append_of_subset_left _ h.runs
  waits k hk hk' := by
    rw [hruns] at hk'
    rcases List.mem_append.1 hk' with hk' | hk'
    · exact h.waits k hk hk'
    · exact absurd (List.mem_singleton.1 hk' ▸ hk) hnew
  bodies := h.bodies.tail hbody

/-- The body is run after the dependencies, and then the cycle is complete or waits. -/
theorem ends_body {low : Nat} {entry : Entry} (hentry : e.map.entry key = entry)
    (h : Inv s root e) (hstatus : (e.map.entry key).status = .instantiated)
    (hnew : key ∉ e.stack) (hreached : s.map.DependsOn root key)
    (h' : Exploring s execute root e key (s.map.entry key).dependencies low e') :
    Ends (do
        runBody execute entry
        if low = e.stack.length then
          finish e.stack.length
          return none
        else return some low) e'
      (fun answer e'' => Passed s execute root e e'' ∧ Visited s e key answer e'')
      (Broken s execute root { e with stack := e.stack ++ [key] }) := by
  have hpassed := (h.push execute hstatus hnew hreached).trans h'.passed
  have hunrun : key ∉ runs s e' :=
    fun hmem => h.not_mem_runs hstatus hnew (h'.passed.waits key (by simp) hmem)
  rw [ends_bind]
  refine (ends_runBody execute entry).mono ?_ ?_
  · intro _ e'' hend
    obtain ⟨x, hx, hresult, rfl⟩ := hend
    obtain ⟨hinv, hruns, hbody⟩ := h'.run h hentry hunrun hx
    rw [hresult] at hbody
    refine (ends_complete (hpassed.run hnew hinv hruns hbody) h'.exploring h'.leading
      fun member hmember => ?_).mono (fun _ _ hend => hend) fun _ _ hfalse => hfalse.elim
    -- what stands above has been run before, and the module itself just now
    have hmember' : member ∈ key :: e'.stack.drop (e.stack.length + 1) :=
      CycleStack.drop_of_pushed h'.exploring.pushed ▸ hmember
    rw [hruns]
    rcases List.mem_cons.1 hmember' with rfl | habove
    · exact List.mem_append_right _ List.mem_cons_self
    · exact List.mem_append_left _ (h'.ran member habove)
  · intro halt e'' hend
    obtain ⟨fault, rfl, rfl | ⟨x, hx, hresult, rfl⟩⟩ := hend
    · exact ⟨⟨fault, rfl⟩, h'.passed.inv, h'.passed.stack,
        h'.passed.bodies.runsBodies h'.passed.inv⟩
    · obtain ⟨hinv, -, hbody⟩ := h'.run h hentry hunrun hx
      rw [hresult] at hbody
      exact ⟨⟨fault, rfl⟩, hinv, h'.passed.stack, _, h'.passed.bodies, h'.passed.inv.evaluated,
        .inr ⟨fault, hbody⟩⟩

/-- What a visit does whose walk is at most `n` modules deep from here. If it finds a fault, a
module that could be evaluated waits, too. -/
def Visits (s : Evaluator σ) (execute : Executor σ) (root : ModuleKey) (n : Nat) : Prop :=
  ∀ (key : ModuleKey) (e : Evaluator σ), Inv s root e → s.map.DependsOn root key →
    (∀ member ∈ e.stack, s.map.DependsOn member key) →
    s.map.entries.length < n + e.stack.length →
    Ends (visit execute n key) e
      (fun answer e' => Passed s execute root e e' ∧ Visited s e key answer e')
      fun halt e' => Broken s execute root e halt e' ∧
        ((e.map.entry key).status = .instantiated → key ∈ e'.stack)

/-- The dependencies of a module that has been put on the stack are visited. -/
theorem ends_dependencies {n : Nat} (hvisits : Visits s execute root n)
    (h : Inv s root e) (hstatus : (e.map.entry key).status = .instantiated)
    (hnew : key ∉ e.stack) (hreached : s.map.DependsOn root key)
    (hleads : ∀ member ∈ e.stack, s.map.DependsOn member key)
    (hfuel : s.map.entries.length < n + (e.stack.length + 1)) :
    Ends ((s.map.entry key).dependencies.foldlM (fun low dependency => do
        return LoadWalk.lower low (← visit execute n dependency)) e.stack.length)
      { e with stack := e.stack ++ [key] }
      (fun low e' => Exploring s execute root e key (s.map.entry key).dependencies low e')
      (Broken s execute root { e with stack := e.stack ++ [key] }) := by
  refine (ends_foldlM (fun done rest low e' => done ++ rest = (s.map.entry key).dependencies ∧
      Exploring s execute root e key done low e')
    (Broken s execute root { e with stack := e.stack ++ [key] }) ?step ?first).mono
    (fun _ _ hend => hend.2) fun _ _ hend => hend
  case first =>
    have hpush := h.push execute hstatus hnew hreached
    exact ⟨rfl, .refl hpush.inv, .start, .start hleads, by simp⟩
  case step =>
    intro done d rest low e' hinvariant
    obtain ⟨hsplit, h'⟩ := hinvariant
    have hd : Requests s key d := by
      show d ∈ (s.map.entry key).dependencies
      simp [← hsplit]
    have hlength := h'.exploring.pushed.length_le
    rw [List.length_append, List.length_singleton] at hlength
    simp only [ends_bind, ends_pure]
    refine (hvisits d e' h'.passed.inv (hreached.tail hd)
      (fun member hmember => (h'.leading.reaches member hmember).tail hd) (by omega)).mono ?_
      fun _ _ hend => h'.passed.broken hend.1
    intro answer e'' hend
    exact ⟨by simpa using hsplit, h'.visited hd hend.1 hend.2⟩

/-- A module that has not been visited goes on the stack, and its dependencies and its body follow.
A fault on the way leaves it there. -/
theorem ends_enter {n : Nat} (hvisits : Visits s execute root n) {entry : Entry}
    (hentry : e.map.entry key = entry) (h : Inv s root e)
    (hstatus : (e.map.entry key).status = .instantiated) (hnew : key ∉ e.stack)
    (hreached : s.map.DependsOn root key) (hleads : ∀ member ∈ e.stack, s.map.DependsOn member key)
    (hfuel : s.map.entries.length < n + (e.stack.length + 1)) :
    Ends (do
        set { e with stack := e.stack ++ [key] }
        let low ← entry.dependencies.foldlM (fun low dependency => do
          return LoadWalk.lower low (← visit execute n dependency)) e.stack.length
        runBody execute entry
        if low = e.stack.length then
          finish e.stack.length
          return none
        else return some low) e
      (fun answer e' => Passed s execute root e e' ∧ Visited s e key answer e')
      fun halt e' => Broken s execute root e halt e' ∧
        ((e.map.entry key).status = .instantiated → key ∈ e'.stack) := by
  have hpush := h.push execute hstatus hnew hreached
  have hdependencies : entry.dependencies = (s.map.entry key).dependencies := by
    rw [← hentry, h.dependencies_eq]
  -- a fault behind the push leaves the module on the stack
  have hpushed : ∀ halt e', Broken s execute root { e with stack := e.stack ++ [key] } halt e' →
      Broken s execute root e halt e' ∧
        ((e.map.entry key).status = .instantiated → key ∈ e'.stack) :=
    fun halt e' hbroken => ⟨hpush.broken hbroken, fun _ => hbroken.stack.subset (by simp)⟩
  rw [ends_bind, ends_set, ends_bind, hdependencies]
  refine (ends_dependencies hvisits h hstatus hnew hreached hleads hfuel).mono ?_ hpushed
  intro low e' h'
  exact (ends_body hentry h hstatus hnew hreached h').mono (fun _ _ hend => hend) hpushed

/-- A visit keeps the invariant, whatever it comes to. -/
theorem visits (s : Evaluator σ) (execute : Executor σ) (root : ModuleKey) (n : Nat) :
    Visits s execute root n := by
  induction n with
  | zero =>
      intro key e h _ _ hfuel
      -- the stack would hold more modules than the map has entries
      have hlength := h.length_stack_le
      omega
  | succ n ih =>
      intro key e h hreached hleads hfuel
      unfold visit
      rw [ends_bind, ends_get]
      -- what is not known or has no instance leaves everything as it is
      have hnothing : ∀ fault, (e.map.entry key).status ≠ .instantiated →
          Broken s execute root e (.fault fault) e ∧
            ((e.map.entry key).status = .instantiated → key ∈ e.stack) :=
        fun fault hstatus => ⟨⟨⟨fault, rfl⟩, h, List.prefix_rfl, Completes.runsBodies .refl h⟩,
          fun hkey => absurd hkey hstatus⟩
      split
      · next hget =>
          refine hnothing _ fun hstatus => ?_
          have hknown : e.map.IsKnown key := ModuleMap.isKnown_of_status_ne (by simp [hstatus])
          simp [ModuleMap.IsKnown, hget] at hknown
      next entry hget =>
      have hentry : e.map.entry key = entry := ModuleMap.entry_of_get? hget
      split
      · next hstatus =>
          refine ⟨.refl h, ⟨rfl, ?_⟩, .none, by simp⟩
          rw [Evaluated, hentry, hstatus]
      · next hstatus =>
          rw [← hentry] at hstatus
          split
          · next position hposition =>
              obtain ⟨hget, hanswer⟩ := CycleStack.answer_of_idxOf? hposition
              exact ⟨.refl h, hanswer, .of_getElem? hget, by simp⟩
          · next hposition =>
              have hnew : key ∉ e.stack := List.idxOf?_eq_none_iff.1 hposition
              exact ends_enter ih hentry h hstatus hnew hreached hleads (by omega)
      · next hevaluated hinstantiated =>
          exact hnothing _ fun hstatus => hinstantiated (hentry ▸ hstatus)

/-! ## Whole walks -/

/-- All that still waits fails. -/
theorem ends_abandon (fault : EvalFault) (hnodup : e.stack.Nodup)
    (h : ∀ k ∈ e.stack, (e.map.entry k).status = .instantiated) :
    Ends (abandon fault) e
      (fun _ e' => (e'.ran, e'.host) = (e.ran, e.host) ∧
        e.map.AltersAll e.stack (FailsWith (.eval fault)) e'.map) fun _ _ => False := by
  unfold abandon
  rw [ends_bind, ends_get]
  have hloop := ModuleMap.ends_alterAll (s := e) id Evaluator.map (fun e => (e.ran, e.host))
    (FailsWith (.eval fault)) (fun member => do
      if (← get).map.status? member = some .instantiated then
        commit (·.markFailed member (.eval fault))) e.stack
  rw [List.map_id] at hloop
  refine hloop hnodup fun member hmember e' hentry => ?_
  have hstatus : (e'.map.entry member).status = .instantiated :=
    (congrArg Entry.status hentry).trans (h member hmember)
  rw [ends_bind, ends_get, if_pos ((ModuleMap.status?_eq_some_iff (by simp)).2 hstatus)]
  refine ends_commit (ModuleMap.markFailed_ok (ModuleMap.isKnown_of_status_ne (by simp [hstatus]))
    (by simp [hstatus]) (by simp [hstatus])) fun map halters => ?_
  exact ⟨rfl, _, halters, rfl⟩

/-- An evaluation that fails has gone on without a fault up to some point, at which all that waited
has failed. The module itself waited, if it could be evaluated. -/
structure Abandons (s : Evaluator σ) (execute : Executor σ) (root : ModuleKey) (fault : EvalFault)
    (e e' : Evaluator σ) : Prop where
  inv : Inv s root e
  bodies : RunsBodies s execute root (s.ran, s.host) e
  waits : (s.map.entry root).status = .instantiated → root ∈ e.stack
  altered : e.map.AltersAll e.stack (FailsWith (.eval fault)) e'.map
  ran : e'.ran = e.ran
  host : e'.host = e.host

/-- What is abandoned has been instantiated, and not evaluated. -/
theorem Abandons.fails {fault : EvalFault} (h : Abandons s execute root fault e e') :
    e.map.Fails e'.map := by
  have hwaiting := fun k hk => Entry.status_eq_instantiated_iff.1 (h.inv.waiting k hk)
  refine .of_altersAll h.altered (by simp) (fun k hk => ?_) (fun k hk => (hwaiting k hk).1)
    fun k hk => by simp [h.inv.waiting k hk]
  obtain ⟨-, i, hprogress⟩ := hwaiting k hk
  rw [Entry.isLoaded, hprogress]
  rfl

/-- Evaluating a module keeps the invariant until it ends, with the module evaluated, or until all
that waits fails. -/
theorem ends_run (execute : Executor σ) (key : ModuleKey) (hstack : s.stack = [])
    (hclosed : ∀ key, Evaluated s key → ∀ d ∈ (s.map.entry key).dependencies, Evaluated s d) :
    Ends (run execute key) s
      (fun _ e => Passed s execute key s e ∧ e.stack = [] ∧ Evaluated e key)
      fun halt e' => ∃ fault e, halt = .fault fault ∧ Abandons s execute key fault e e' := by
  have hinv : Inv s key s := .start hstack hclosed
  unfold run
  simp only [ends_tryCatch, ends_bind, ends_get, ends_discard]
  refine (visits s execute key (s.map.entries.length + 1) key s hinv .refl (by simp [hstack])
    (by omega)).mono ?_ ?_
  · intro answer e hend
    obtain ⟨hpassed, hvisited⟩ := hend
    cases answer with
    | none =>
        obtain ⟨hsame, hevaluated⟩ := hvisited.search
        exact ⟨hpassed, hsame.trans hstack, hevaluated⟩
    | some low =>
        obtain ⟨target, htarget, -⟩ := hvisited.leaves.target low rfl
        simp [hstack] at htarget
  · intro halt e hend
    obtain ⟨⟨⟨fault, rfl⟩, hinv', -, hbodies⟩, hwaits⟩ := hend
    simp only [ends_bind, ends_throw]
    refine (ends_abandon fault hinv'.nodup hinv'.waiting).mono ?_ fun _ _ hfalse => hfalse.elim
    intro _ e' hend
    obtain ⟨hrest, halters⟩ := hend
    simp only [Prod.mk.injEq] at hrest
    exact ⟨fault, e, rfl, hinv', hbodies, hwaits, halters, hrest.1, hrest.2⟩

end EvalM

/-- What the walk has done when it stops leaves a catalog sound. -/
theorem EvalM.Inv.sound {σ : Type} {importMap : ImportMap} {c : Catalog}
    {root : ModuleKey} {s e : Evaluator σ} (hinv : EvalM.Inv s root e)
    (hmap : s.map = c.map) (h : c.Sound importMap) :
    ({ c with map := e.map } : Catalog).Sound importMap := by
  have hdependencies := hinv.dependencies_eq
  have hinstances := hinv.instances
  have hclosed := hinv.closed
  simp only [hmap] at hdependencies hinstances hclosed
  refine h.advance (hmap ▸ hinv.advances) (fun k hk d hd => ?_) fun k hk d hd => ?_
  · rw [hdependencies] at hd
    rw [hinstances] at hk ⊢
    exact h.instances k hk d hd
  · rw [hdependencies] at hd
    exact hclosed k hk d hd

/-- Evaluating a module keeps a catalog sound, and ends in no other way than with a fault if it
fails. -/
theorem Catalog.Sound.ends_evaluate {σ : Type} {importMap : ImportMap} {c : Catalog}
    (h : c.Sound importMap) (execute : Executor σ) (key : ModuleKey) (ran : List ModuleKey)
    (host : σ) :
    Ends (EvalM.run execute key) ⟨c.map, [], ran, host⟩
      (fun _ e => ({ c with map := e.map } : Catalog).Sound importMap)
      fun halt e => (∃ fault, halt = .fault fault) ∧
        ({ c with map := e.map } : Catalog).Sound importMap := by
  refine (EvalM.ends_run (s := ⟨c.map, [], ran, host⟩) execute key rfl h.evaluations).mono
    (fun _ e hend => hend.1.inv.sound rfl h) ?_
  rintro _ e' ⟨fault, e, rfl, habandons⟩
  exact ⟨⟨fault, rfl⟩, (habandons.inv.sound rfl h).fails habandons.fails⟩

end ModuleGraph
